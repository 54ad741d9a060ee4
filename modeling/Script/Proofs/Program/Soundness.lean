import Script.Proofs.Program.Cursor
import Script.Proofs.Program.Grammar

namespace Script

def Kind.comparisons : List Kind :=
  [.equalsCompare, .notEqualsCompare, .greater, .greaterEquals, .lesser, .lesserEquals]

def Token.ShowsKind (token : Token) : Prop :=
  token.kind ∈ Kind.comparisons → token.kind.spelling? = some token.text

/-- The only end mark is the last one, and no comparison ahead is written as another. -/
structure Cursor.Ready (c : Cursor) : Prop where
  stop_kind : c.stop.kind = .endOfFile
  ahead_kind : ∀ token ∈ c.ahead, token.kind ≠ .endOfFile
  showsKind : ∀ token ∈ c.ahead, token.ShowsKind

namespace Cursor

variable {c c' : Cursor} {ls : List Lexeme}

theorem Ready.ahead_ne_nil (h : c.Ready) (hkind : c.current.kind ≠ .endOfFile) : c.ahead ≠ [] := by
  intro hnil
  rw [current, hnil] at hkind
  exact hkind h.stop_kind

theorem Ready.current_showsKind (h : c.Ready) : c.current.ShowsKind := by
  cases hahead : c.ahead with
  | nil =>
    intro hmem
    rw [current, hahead, List.head?_nil, Option.getD_none, h.stop_kind] at hmem
    exact absurd hmem (by decide)
  | cons token rest =>
    rw [current, hahead]
    exact h.showsKind token (hahead ▸ List.mem_cons_self)

theorem Ready.next (h : c.Ready) : c.next.Ready where
  stop_kind := h.stop_kind
  ahead_kind token hmem := h.ahead_kind token (List.mem_of_mem_tail hmem)
  showsKind token hmem := h.showsKind token (List.mem_of_mem_tail hmem)

theorem Ready.ahead_eq_nil (h : c.Ready) (hkind : c.current.kind = .endOfFile) : c.ahead = [] := by
  cases hahead : c.ahead with
  | nil => rfl
  | cons token rest =>
    rw [current, hahead] at hkind
    exact absurd hkind (h.ahead_kind token (hahead ▸ List.mem_cons_self))

theorem Ready.steps (h : c.Ready) (hsteps : c.Steps ls c') : c'.Ready := by
  induction ls generalizing c with
  | nil => exact steps_nil.mp hsteps ▸ h
  | cons l ls ih => exact ih h.next hsteps.2.2

theorem Ready.step (h : c.Ready) (hkind : c.current.kind ≠ .endOfFile) :
    c.Steps [c.current.lexeme] c.next :=
  ⟨h.ahead_ne_nil hkind, rfl, rfl⟩

end Cursor

namespace Parser

def Sound {α : Type} (p : Parser α) (meaning : List Lexeme → α → Prop) : Prop :=
  ∀ ⦃c c' : Cursor⦄ ⦃a : α⦄, c.Ready → p c = .ok a c' → ∃ ls, c.Steps ls c' ∧ meaning ls a

variable {nested : Parser Expr} {c c' : Cursor}

/-- The closing token at the end of a list. -/
theorem close_sound {α : Type} {closer : Kind} {a b : α} (hcloser : closer ≠ .endOfFile)
    (hc : c.Ready) (h : (do let _ ← expect closer; return a : Parser α) c = .ok b c') :
    b = a ∧ ∃ last, c.Steps [last] c' ∧ last.kind = closer := by
  obtain ⟨hkind, h⟩ := expect_bind_eq_ok.mp h
  obtain ⟨rfl, rfl⟩ := EStateM.Result.ok.inj h
  exact ⟨rfl, _, hc.step (hkind ▸ hcloser), hkind⟩

section Lists

variable (hnested : Sound nested (Derives .assignment))
include hnested

theorem items_sound {closer : Kind} (hcloser : closer ≠ .endOfFile) (n : Nat) :
    Sound (items nested closer n) fun ls es =>
      ∃ ms last, ls = ms ++ [last] ∧ last.kind = closer ∧ DerivesItems ms es := by
  induction n with
  | zero =>
    intro c c' es hc h
    rw [items] at h
    obtain ⟨rfl, last, hlast, hkind⟩ := close_sound hcloser hc h
    exact ⟨[last], hlast, [], last, rfl, hkind, .nil⟩
  | succ n ih =>
    intro c c' es hc h
    rw [items, atCloser_bind] at h
    split at h
    · obtain ⟨rfl, last, hlast, hkind⟩ := close_sound hcloser hc h
      exact ⟨[last], hlast, [], last, rfl, hkind, .nil⟩
    · obtain ⟨item, c₁, hitem, h⟩ := bind_eq_ok.mp h
      obtain ⟨ls, hls, hderives⟩ := hnested hc hitem
      have hc₁ := hc.steps hls
      rw [accept_bind] at h
      split at h
      case isTrue hcomma =>
        obtain ⟨rest, c₂, hrest, h⟩ := bind_eq_ok.mp h
        obtain ⟨rfl, rfl⟩ := EStateM.Result.ok.inj h
        obtain ⟨_, hms, ms, last, rfl, hkind, hitems⟩ := ih hc₁.next hrest
        have hstep := hc₁.step (by rw [hcomma]; decide)
        refine ⟨_, hls.append (hstep.append hms), ls ++ c₁.current.lexeme :: ms, last, ?_, hkind,
          .cons hderives hcomma hitems⟩
        simp
      case isFalse =>
        obtain ⟨rfl, last, hlast, hkind⟩ := close_sound hcloser hc₁ h
        exact ⟨_, hls.append hlast, ls, last, rfl, hkind, .last hderives⟩

theorem primary_sound (n : Nat) : Sound (primary nested n) (Derives .primary) := by
  intro c c' e hc h
  rw [primary, advance_bind] at h
  cases hkind : c.current.kind with
  | identifier =>
    rw [hkind] at h
    obtain ⟨rfl, rfl⟩ := EStateM.Result.ok.inj h
    exact ⟨_, hc.step (by rw [hkind]; decide), .name hkind⟩
  | number =>
    simp only [hkind] at h
    cases hvalue : Number.read? c.current.text with
    | none => simp [hvalue] at h
    | some value =>
      rw [hvalue] at h
      obtain ⟨rfl, rfl⟩ := EStateM.Result.ok.inj h
      exact ⟨_, hc.step (by rw [hkind]; decide), .number hkind hvalue⟩
  | string =>
    rw [hkind] at h
    obtain ⟨rfl, rfl⟩ := EStateM.Result.ok.inj h
    exact ⟨_, hc.step (by rw [hkind]; decide), .string hkind⟩
  | openParen =>
    have hopen := hc.step (by rw [hkind]; decide)
    rw [hkind] at h
    obtain ⟨inner, c₁, hinner, h⟩ := bind_eq_ok.mp h
    obtain ⟨ls, hls, hderives⟩ := hnested hc.next hinner
    obtain ⟨rfl, last, hlast, hcloser⟩ := close_sound (by decide) (hc.next.steps hls) h
    exact ⟨_, (hopen.append hls).append hlast, .paren hkind hderives hcloser⟩
  | openBracket =>
    have hopen := hc.step (by rw [hkind]; decide)
    rw [hkind] at h
    obtain ⟨elements, c₁, helements, h⟩ := bind_eq_ok.mp h
    obtain ⟨rfl, rfl⟩ := EStateM.Result.ok.inj h
    obtain ⟨_, hls, ls, last, rfl, hcloser, hitems⟩ :=
      items_sound hnested (by decide) n hc.next helements
    exact ⟨_, hopen.append hls, .array hkind hitems hcloser⟩
  | _ => simp [hkind] at h

theorem links_sound (n : Nat) (e : Expr) : Sound (links nested n e) (DerivesLinks .linked e) := by
  induction n generalizing e with
  | zero =>
    intro c c' e' hc h
    obtain ⟨rfl, rfl⟩ := EStateM.Result.ok.inj h
    exact ⟨[], rfl, .nil⟩
  | succ n ih =>
    intro c c' e' hc h
    -- A dot, a bracket or a parenthesis goes on. Anything else ends the links.
    rw [links, accept_bind] at h
    split at h
    case isTrue hdot =>
      have hstep := hc.step (by rw [hdot]; decide)
      obtain ⟨hname, h⟩ := identifier_bind_eq_ok.mp h
      have hstep' := hc.next.step (by rw [hname]; decide)
      obtain ⟨ms, hms, hlinks⟩ := ih _ hc.next.next h
      exact ⟨_, hstep.append (hstep'.append hms), .member hdot hname hlinks⟩
    case isFalse =>
    rw [if_neg (by simp), accept_bind] at h
    split at h
    case isTrue hopener =>
      have hstep := hc.step (by rw [hopener]; decide)
      obtain ⟨property, c₁, hproperty, h⟩ := bind_eq_ok.mp h
      obtain ⟨ls, hls, hderives⟩ := hnested hc.next hproperty
      have hc₁ := hc.next.steps hls
      obtain ⟨hcloser, h⟩ := expect_bind_eq_ok.mp h
      have hstep' := hc₁.step (by rw [hcloser]; decide)
      obtain ⟨ms, hms, hlinks⟩ := ih _ hc₁.next h
      exact ⟨_, (hstep.append hls).append (hstep'.append hms),
        .index hopener hderives hcloser hlinks⟩
    case isFalse =>
    rw [if_neg (by simp), accept_bind] at h
    split at h
    case isTrue hopener =>
      have hstep := hc.step (by rw [hopener]; decide)
      obtain ⟨arguments, c₁, harguments, h⟩ := bind_eq_ok.mp h
      obtain ⟨_, hls, ls, last, rfl, hcloser, hitems⟩ :=
        items_sound hnested (by decide) n hc.next harguments
      obtain ⟨ms, hms, hlinks⟩ := ih _ (hc.next.steps hls) h
      obtain ⟨c₂, hls, hlast⟩ := Cursor.steps_append.mp hls
      exact ⟨_, (hstep.append hls).append (hlast.append hms),
        .call hopener hitems hcloser hlinks⟩
    case isFalse =>
      obtain ⟨rfl, rfl⟩ := EStateM.Result.ok.inj h
      exact ⟨[], rfl, .nil⟩

theorem linked_sound (n : Nat) : Sound (linked nested n) (Derives .linked) := by
  intro c c' e hc h
  obtain ⟨first, c₁, hfirst, h⟩ := bind_eq_ok.mp h
  obtain ⟨ls, hls, hderives⟩ := primary_sound hnested n hc hfirst
  obtain ⟨ms, hms, hlinks⟩ := links_sound hnested n first (hc.steps hls) h
  exact ⟨_, hls.append hms, .chain rfl hderives hlinks⟩

end Lists

/-- Does a way to tell operators only accept the signs of operators of one level? -/
def Tells (operator? : Token → Option Operator) (level : Level) : Prop :=
  ∀ ⦃token : Token⦄ ⦃operator : Operator⦄, token.ShowsKind → operator? token = some operator →
    operator.level = level ∧ token.lexeme = operator.sign

theorem arithmetic?_tells {symbols : List String} {level : Level}
    (hsymbols : ∀ operator : Operator, operator.symbol ∈ symbols →
      operator.level = level ∧ operator.kind = .operator) : Tells (arithmetic? symbols) level := by
  intro token operator _ h
  rw [arithmetic?] at h
  split at h
  case isTrue hsign =>
    have hsymbol := Operator.symbol_of_ofSymbol? h
    obtain ⟨hlevel, hkind⟩ := hsymbols operator (hsymbol ▸ hsign.2)
    refine ⟨hlevel, ?_⟩
    rw [Token.lexeme, Operator.sign, hsign.1, hkind, hsymbol]
  case isFalse => simp at h

theorem comparison?_tells : Tells comparison? .comparison := by
  have hsigns : ∀ operator : Operator, ∀ kind ∈ Kind.comparisons,
      kind.spelling? = some operator.symbol →
        operator.level = .comparison ∧ kind = operator.kind := by
    intro operator
    cases operator <;> decide
  intro token operator hshows h
  have hkinds : token.kind ∈ Kind.comparisons ∧ Operator.ofSymbol? token.text = some operator := by
    rw [comparison?] at h
    split at h <;> simp_all [Kind.comparisons]
  obtain ⟨hmem, hoperator⟩ := hkinds
  have hsymbol := Operator.symbol_of_ofSymbol? hoperator
  obtain ⟨hlevel, hkind⟩ := hsigns operator token.kind hmem (hsymbol ▸ hshows hmem)
  refine ⟨hlevel, ?_⟩
  rw [Token.lexeme, Operator.sign, hkind, hsymbol]

theorem chain_sound {operator? : Token → Option Operator} {operand : Parser Expr}
    {level next : Level} (htells : Tells operator? level) (hlevel : level.operand? = some next)
    (hoperand : Sound operand (Derives next)) (n : Nat) (left : Expr) :
    Sound (chain operator? operand n left) (DerivesLinks level left) := by
  induction n generalizing left with
  | zero =>
    intro c c' e hc h
    obtain ⟨rfl, rfl⟩ := EStateM.Result.ok.inj h
    exact ⟨[], rfl, .nil⟩
  | succ n ih =>
    intro c c' e hc h
    rw [chain, peek_bind] at h
    cases hoperator : operator? c.current with
    | none =>
      rw [hoperator] at h
      obtain ⟨rfl, rfl⟩ := EStateM.Result.ok.inj h
      exact ⟨[], rfl, .nil⟩
    | some operator =>
      simp only [hoperator, advance_bind] at h
      -- The level of the chain is the one of any operator it accepts.
      obtain ⟨rfl, hsign⟩ := htells hc.current_showsKind hoperator
      have hkind : c.current.kind = operator.kind := congrArg Lexeme.kind hsign
      have hstep := hc.step (by rw [hkind]; cases operator <;> decide)
      obtain ⟨right, c₁, hright, h⟩ := bind_eq_ok.mp h
      obtain ⟨ls, hls, hderives⟩ := hoperand hc.next hright
      obtain ⟨ms, hms, hlinks⟩ := ih _ (hc.next.steps hls) h
      rw [hsign] at hstep
      exact ⟨_, (hstep.append hls).append hms, .binary hlevel hderives hlinks⟩

/-- Operands of the next level and the chain that joins them. -/
theorem chained_sound {operator? : Token → Option Operator} {operand : Parser Expr}
    {level next : Level} (htells : Tells operator? level) (hlevel : level.operand? = some next)
    (hoperand : Sound operand (Derives next)) (n : Nat) :
    Sound (do chain operator? operand n (← operand)) (Derives level) := by
  intro c c' e hc h
  obtain ⟨first, c₁, hfirst, h⟩ := bind_eq_ok.mp h
  obtain ⟨ls, hls, hderives⟩ := hoperand hc hfirst
  obtain ⟨ms, hms, hlinks⟩ := chain_sound htells hlevel hoperand n first (hc.steps hls) h
  exact ⟨_, hls.append hms, .chain hlevel hderives hlinks⟩

theorem comparison_sound (hnested : Sound nested (Derives .assignment)) (n : Nat) :
    Sound (comparison nested n) (Derives .comparison) := by
  have hmultiplicative : Sound (multiplicative nested n) (Derives .multiplicative) := by
    refine chained_sound (arithmetic?_tells ?_) rfl (linked_sound hnested n) n
    intro operator hmem
    cases operator <;> simp_all [Operator.symbol, Operator.level, Operator.kind]
  have hadditive : Sound (additive nested n) (Derives .additive) := by
    refine chained_sound (arithmetic?_tells ?_) rfl hmultiplicative n
    intro operator hmem
    cases operator <;> simp_all [Operator.symbol, Operator.level, Operator.kind]
  exact chained_sound comparison?_tells rfl hadditive n

/-- A property in front of the closing brace is the last one. -/
theorem last_property_sound {n : Nat} {property : Property} {properties : List Property}
    (hc : c.Ready) (hcloser : c.current.kind = .closeBrace)
    (h : (do return property :: (← Parser.properties nested n) : Parser (List Property)) c =
      .ok properties c') :
    properties = [property] ∧ c.Steps [c.current.lexeme] c' := by
  obtain ⟨rest, c₁, hrest, h⟩ := bind_eq_ok.mp h
  obtain ⟨rfl, rfl⟩ := EStateM.Result.ok.inj h
  rw [properties_nil hcloser] at hrest
  obtain ⟨rfl, rfl⟩ := EStateM.Result.ok.inj hrest
  exact ⟨rfl, hc.step (by rw [hcloser]; decide)⟩

/-- A property in front of a comma is followed by those behind the comma. -/
theorem more_properties_sound {n : Nat} {ls : List Lexeme} {property : Property}
    {properties : List Property}
    (hrest : Sound (Parser.properties nested n) fun ls ps =>
      ∃ ms last, ls = ms ++ [last] ∧ last.kind = .closeBrace ∧ DerivesProperties ms ps)
    (hc : c.Ready) (hcomma : c.current.kind = .comma) (hproperty : DerivesProperty ls property)
    (h : (do return property :: (← Parser.properties nested n) : Parser (List Property)) c.next =
      .ok properties c') :
    ∃ ms last, c.Steps (c.current.lexeme :: ms ++ [last]) c' ∧ last.kind = .closeBrace ∧
      DerivesProperties (ls ++ c.current.lexeme :: ms) properties := by
  obtain ⟨rest, c₁, hparsed, h⟩ := bind_eq_ok.mp h
  obtain ⟨rfl, rfl⟩ := EStateM.Result.ok.inj h
  obtain ⟨_, hms, ms, last, rfl, hlast, hderives⟩ := hrest hc.next hparsed
  have hstep := hc.step (by rw [hcomma]; decide)
  exact ⟨ms, last, hstep.append hms, hlast, .cons hproperty hcomma hderives⟩

theorem properties_sound (hnested : Sound nested (Derives .assignment)) (n : Nat) :
    Sound (properties nested n) fun ls ps =>
      ∃ ms last, ls = ms ++ [last] ∧ last.kind = .closeBrace ∧ DerivesProperties ms ps := by
  induction n with
  | zero =>
    intro c c' ps hc h
    rw [properties] at h
    obtain ⟨rfl, last, hlast, hkind⟩ := close_sound (by decide) hc h
    exact ⟨[last], hlast, [], last, rfl, hkind, .nil⟩
  | succ n ih =>
    intro c c' ps hc h
    rw [properties, atCloser_bind] at h
    split at h
    · obtain ⟨rfl, last, hlast, hkind⟩ := close_sound (by decide) hc h
      exact ⟨[last], hlast, [], last, rfl, hkind, .nil⟩
    · -- Behind the key there is a comma, the closing brace or a colon, in the order of the checks.
      obtain ⟨hkey, h⟩ := identifier_bind_eq_ok.mp h
      have hstep := hc.step (by rw [hkey]; decide)
      have hcopied : DerivesProperty [c.current.lexeme] _ := .copied hkey
      rw [accept_bind] at h
      split at h
      case isTrue hcomma =>
        obtain ⟨ms, last, hms, hlast, hderives⟩ :=
          more_properties_sound ih hc.next hcomma hcopied h
        exact ⟨_, hstep.append hms, _, last, rfl, hlast, hderives⟩
      case isFalse =>
      rw [if_neg (by simp), check_bind] at h
      split at h
      case isTrue hcloser =>
        have hcloser := of_decide_eq_true hcloser
        obtain ⟨rfl, hlast⟩ := last_property_sound hc.next hcloser h
        exact ⟨_, hstep.append hlast, _, _, rfl, hcloser, .last hcopied⟩
      case isFalse =>
      rw [accept_bind] at h
      split at h
      case isTrue hcolon =>
        have hstep' := hc.next.step (by rw [hcolon]; decide)
        obtain ⟨value, c₁, hvalue, h⟩ := bind_eq_ok.mp h
        obtain ⟨ls, hls, hderives⟩ := hnested hc.next.next hvalue
        have hc₁ := hc.next.next.steps hls
        have hread := hstep.append (hstep'.append hls)
        have hgiven : DerivesProperty (c.current.lexeme :: c.next.current.lexeme :: ls) _ :=
          .given hkey hcolon hderives
        rw [check_bind] at h
        by_cases hcloser : c₁.current.kind = .closeBrace
        · simp only [hcloser, decide_true, Bool.not_true] at h
          obtain ⟨rfl, hlast⟩ := last_property_sound hc₁ hcloser h
          exact ⟨_, hread.append hlast, _, _, rfl, hcloser, .last hgiven⟩
        · simp only [hcloser, decide_false, Bool.not_false] at h
          obtain ⟨hcomma, h⟩ := expect_bind_eq_ok.mp h
          obtain ⟨ms, last, hms, hlast, hproperties⟩ :=
            more_properties_sound ih hc₁ hcomma hgiven h
          refine ⟨_, hread.append hms, _, last, ?_, hlast, hproperties⟩
          simp
      case isFalse =>
        rw [if_neg (by simp), peek_bind] at h
        simp at h

theorem object_sound (hnested : Sound nested (Derives .assignment)) (n : Nat) :
    Sound (object nested n) (Derives .object) := by
  intro c c' e hc h
  rw [object, accept_bind] at h
  split at h
  case isTrue hopener =>
    have hstep := hc.step (by rw [hopener]; decide)
    obtain ⟨properties, c₁, hproperties, h⟩ := bind_eq_ok.mp h
    obtain ⟨rfl, rfl⟩ := EStateM.Result.ok.inj h
    obtain ⟨_, hls, ls, last, rfl, hcloser, hderives⟩ :=
      properties_sound hnested n hc.next hproperties
    exact ⟨_, hstep.append hls, .object hopener hderives hcloser⟩
  case isFalse =>
    obtain ⟨ls, hls, hderives⟩ := comparison_sound hnested n hc h
    exact ⟨ls, hls, .operand hderives⟩

theorem expression_sound (n : Nat) : Sound (expression n) (Derives .assignment) := by
  induction n with
  | zero =>
    intro c c' e hc h
    rw [expression, peek_bind] at h
    simp at h
  | succ n ih =>
    intro c c' e hc h
    rw [expression] at h
    obtain ⟨left, c₁, hleft, h⟩ := bind_eq_ok.mp h
    obtain ⟨ls, hls, hderives⟩ := object_sound ih n hc hleft
    have hc₁ := hc.steps hls
    rw [accept_bind] at h
    split at h
    case isTrue hequals =>
      have hstep := hc₁.step (by rw [hequals]; decide)
      obtain ⟨value, c₂, hvalue, h⟩ := bind_eq_ok.mp h
      obtain ⟨rfl, rfl⟩ := EStateM.Result.ok.inj h
      obtain ⟨ms, hms, hvalue⟩ := ih hc₁.next hvalue
      exact ⟨_, hls.append (hstep.append hms), .assign hderives hequals hvalue⟩
    case isFalse =>
      obtain ⟨rfl, rfl⟩ := EStateM.Result.ok.inj h
      exact ⟨ls, hls, .value hderives⟩

theorem parameters_sound (n : Nat) : Sound (parameters n) DerivesNames := by
  induction n with
  | zero =>
    intro c c' names hc h
    rw [parameters] at h
    obtain ⟨hname, h⟩ := identifier_bind_eq_ok.mp h
    obtain ⟨rfl, rfl⟩ := EStateM.Result.ok.inj h
    exact ⟨_, hc.step (by rw [hname]; decide), .last hname⟩
  | succ n ih =>
    intro c c' names hc h
    rw [parameters] at h
    obtain ⟨hname, h⟩ := identifier_bind_eq_ok.mp h
    have hstep := hc.step (by rw [hname]; decide)
    rw [accept_bind] at h
    split at h
    case isTrue hcomma =>
      have hstep' := hc.next.step (by rw [hcomma]; decide)
      obtain ⟨rest, c₁, hrest, h⟩ := bind_eq_ok.mp h
      obtain ⟨rfl, rfl⟩ := EStateM.Result.ok.inj h
      obtain ⟨ls, hls, hderives⟩ := ih hc.next.next hrest
      exact ⟨_, hstep.append (hstep'.append hls), .cons hname hcomma hderives⟩
    case isFalse =>
      obtain ⟨rfl, rfl⟩ := EStateM.Result.ok.inj h
      exact ⟨_, hstep, .last hname⟩

theorem block_sound {statement : Parser Stmt} (hstatement : Sound statement DerivesStmt) (n : Nat) :
    Sound (block statement n) fun ls stmts =>
      ∃ ms last, ls = ms ++ [last] ∧ last.kind = .closeBrace ∧ DerivesBody ms stmts := by
  induction n with
  | zero =>
    intro c c' stmts hc h
    rw [block] at h
    obtain ⟨rfl, last, hlast, hkind⟩ := close_sound (by decide) hc h
    exact ⟨[last], hlast, [], last, rfl, hkind, .nil⟩
  | succ n ih =>
    intro c c' stmts hc h
    rw [block, atCloser_bind] at h
    split at h
    · obtain ⟨rfl, last, hlast, hkind⟩ := close_sound (by decide) hc h
      exact ⟨[last], hlast, [], last, rfl, hkind, .nil⟩
    · -- Loose semicolons are skipped one at a time.
      rw [accept_bind] at h
      split at h
      case isTrue hsemicolon =>
        have hstep := hc.step (by rw [hsemicolon]; decide)
        obtain ⟨_, hms, ms, last, rfl, hlast, hderives⟩ := ih hc.next h
        exact ⟨_, hstep.append hms, _, last, rfl, hlast, .semicolon hsemicolon hderives⟩
      case isFalse =>
        obtain ⟨first, c₁, hfirst, h⟩ := bind_eq_ok.mp h
        obtain ⟨ls, hls, hstmt⟩ := hstatement hc hfirst
        obtain ⟨rest, c₂, hrest, h⟩ := bind_eq_ok.mp h
        obtain ⟨rfl, rfl⟩ := EStateM.Result.ok.inj h
        obtain ⟨_, hms, ms, last, rfl, hlast, hderives⟩ := ih (hc.steps hls) hrest
        exact ⟨_, hls.append hms, ls ++ ms, last, (List.append_assoc ..).symm, hlast,
          .cons hstmt hderives⟩

theorem declaration_sound {n : Nat} {stmt : Stmt} (hc : c.Ready)
    (hword : c.current.kind = .letWord ∨ c.current.kind = .constWord)
    (h : declaration n c = .ok stmt c') : ∃ ls, c.Steps ls c' ∧ DerivesForm ls stmt := by
  have hstep := hc.step (by rcases hword with hword | hword <;> rw [hword] <;> decide)
  rw [declaration, advance_bind] at h
  obtain ⟨hname, h⟩ := identifier_bind_eq_ok.mp h
  have hstep' := hc.next.step (by rw [hname]; decide)
  rw [accept_bind] at h
  split at h
  case isTrue hequals =>
    have hstep₂ := hc.next.next.step (by rw [hequals]; decide)
    obtain ⟨value, c₁, hvalue, h⟩ := bind_eq_ok.mp h
    obtain ⟨rfl, rfl⟩ := EStateM.Result.ok.inj h
    obtain ⟨ls, hls, hvalue⟩ := expression_sound n hc.next.next.next hvalue
    refine ⟨_, hstep.append (hstep'.append (hstep₂.append hls)), .declare ?_ hname hequals hvalue⟩
    rcases hword with hword | hword <;> simp [Token.lexeme, hword]
  case isFalse =>
    rw [if_neg (by simp)] at h
    split at h
    case isTrue => simp at h
    case isFalse hconstant =>
      obtain ⟨rfl, rfl⟩ := EStateM.Result.ok.inj h
      have hlet : c.current.kind = .letWord := hword.resolve_right (by simpa using hconstant)
      rw [decide_eq_false (by rw [hlet]; decide)]
      exact ⟨_, hstep.append hstep', .bare hlet hname⟩

theorem function_sound {statement : Parser Stmt} (hstatement : Sound statement DerivesStmt)
    (n : Nat) : Sound (function statement n) DerivesForm := by
  intro c c' stmt hc h
  obtain ⟨hword, h⟩ := expect_bind_eq_ok.mp h
  obtain ⟨hname, h⟩ := identifier_bind_eq_ok.mp h
  obtain ⟨hopener, h⟩ := expect_bind_eq_ok.mp h
  have hhead := (hc.step (by rw [hword]; decide)).append
    ((hc.next.step (by rw [hname]; decide)).append (hc.next.next.step (by rw [hopener]; decide)))
  have hc₃ := hc.steps hhead
  -- With and without parameters, the parser goes on in the same way behind them.
  have hparameters : ∃ names c₁ ls, c.next.next.next.Steps ls c₁ ∧ DerivesParameters ls names ∧
      (do
        let _ ← expect .closeParen
        let _ ← expect .openBrace
        return .function c.next.current.text names (← block statement n) : Parser Stmt) c₁ =
          .ok stmt c' := by
    rw [check_bind] at h
    split at h
    · exact ⟨[], _, [], rfl, .none, h⟩
    · obtain ⟨names, c₁, hnames, h⟩ := bind_eq_ok.mp h
      obtain ⟨ls, hls, hderives⟩ := parameters_sound n hc₃ hnames
      exact ⟨names, c₁, ls, hls, .names hderives, h⟩
  obtain ⟨names, c₁, ls, hls, hderives, h⟩ := hparameters
  have hc₁ := hc₃.steps hls
  obtain ⟨hcloser, h⟩ := expect_bind_eq_ok.mp h
  obtain ⟨hleft, h⟩ := expect_bind_eq_ok.mp h
  have hmiddle := (hc₁.step (by rw [hcloser]; decide)).append
    (hc₁.next.step (by rw [hleft]; decide))
  obtain ⟨body, c₂, hbody, h⟩ := bind_eq_ok.mp h
  obtain ⟨rfl, rfl⟩ := EStateM.Result.ok.inj h
  obtain ⟨_, hms, ms, last, rfl, hright, hstmts⟩ := block_sound hstatement n hc₁.next.next hbody
  obtain ⟨c₃, hms, hlast⟩ := Cursor.steps_append.mp hms
  exact ⟨_, ((hhead.append hls).append (hmiddle.append hms)).append hlast,
    .function hword hname hopener hderives hcloser hleft hstmts hright⟩

theorem form_sound {n : Nat} (hstatement : Sound (statement n) DerivesStmt) :
    Sound (form n) DerivesForm := by
  intro c c' stmt hc h
  rw [form, peek_bind] at h
  have hexpression : (Stmt.expr <$> expression (n + 1)) c = .ok stmt c' →
      ∃ ls, c.Steps ls c' ∧ DerivesForm ls stmt := by
    intro h
    obtain ⟨e, he, rfl⟩ := map_eq_ok.mp h
    obtain ⟨ls, hls, hderives⟩ := expression_sound (n + 1) hc he
    exact ⟨ls, hls, .expr hderives⟩
  cases hkind : c.current.kind with
  | letWord =>
    rw [hkind] at h
    exact declaration_sound hc (.inl hkind) h
  | constWord =>
    rw [hkind] at h
    exact declaration_sound hc (.inr hkind) h
  | funcWord =>
    rw [hkind] at h
    exact function_sound hstatement n hc h
  | ifWord | elseWord | forWord => simp [hkind] at h
  | _ =>
    rw [hkind] at h
    exact hexpression h

theorem statement_sound (n : Nat) : Sound (statement n) DerivesStmt := by
  induction n with
  | zero =>
    intro c c' stmt hc h
    obtain ⟨e, c₁, he, h⟩ := bind_eq_ok.mp h
    obtain ⟨rfl, rfl⟩ := EStateM.Result.ok.inj h
    obtain ⟨ls, hls, hderives⟩ := expression_sound 0 hc he
    exact ⟨ls, hls, .plain (.expr hderives)⟩
  | succ n ih =>
    intro c c' stmt hc h
    rw [statement_succ] at h
    obtain ⟨stmt', c₁, hform, h⟩ := bind_eq_ok.mp h
    obtain ⟨ls, hls, hderives⟩ := form_sound ih hc hform
    rw [accept_bind] at h
    split at h
    case isTrue hsemicolon =>
      obtain ⟨rfl, rfl⟩ := EStateM.Result.ok.inj h
      have hstep := (hc.steps hls).step (by rw [hsemicolon]; decide)
      exact ⟨_, hls.append hstep, .ended hderives hsemicolon⟩
    case isFalse =>
      obtain ⟨rfl, rfl⟩ := EStateM.Result.ok.inj h
      exact ⟨ls, hls, .plain hderives⟩

/-- Each round reads a token, so a program without errors is read to its end. -/
theorem statements_sound {n : Nat} {stmts : List Stmt} (hc : c.Ready) (hn : c.ahead.length ≤ n)
    (h : statements n c = (stmts, [])) : DerivesBody (c.ahead.map Token.lexeme) stmts := by
  induction n generalizing c stmts with
  | zero =>
    obtain ⟨rfl, -⟩ := Prod.mk.inj h
    rw [List.length_eq_zero_iff.mp (Nat.le_zero.mp hn)]
    exact .nil
  | succ n ih =>
    rw [statements] at h
    split at h
    case h_1 hkind =>
      obtain ⟨rfl, -⟩ := Prod.mk.inj h
      rw [hc.ahead_eq_nil hkind]
      exact .nil
    case h_2 hkind =>
      have hstep := hc.step (by rw [hkind]; decide)
      have hahead := hstep.map_lexeme
      have hlength := congrArg List.length hahead
      simp only [List.length_map, List.length_append, List.length_singleton] at hlength
      rw [hahead]
      exact .semicolon hkind (ih hc.next (by omega) h)
    case h_3 =>
      split at h
      case h_1 stmt c₁ hstmt =>
        obtain ⟨ls, hls, hderives⟩ := statement_sound (n + 1) hc hstmt
        have hahead := hls.map_lexeme
        have hlength := congrArg List.length hahead
        have hpos := List.length_pos_iff.mpr hderives.ne_nil
        simp only [List.length_map, List.length_append] at hlength
        obtain ⟨rfl, hrest⟩ := Prod.mk.inj h
        rw [hahead]
        exact .cons hderives (ih (hc.steps hls) (by omega) (Prod.ext rfl hrest))
      -- Tokens are skipped behind an error only, and there is none.
      case h_2 => simp at h

end Parser

theorem Cursor.ready_ofTokens {tokens : List Token} (htokens : ∀ token ∈ tokens, token.ShowsKind) :
    (Cursor.ofTokens tokens).Ready where
  stop_kind := stop_kind_ofTokens tokens
  ahead_kind token hmem := by simpa using List.mem_takeWhile_imp hmem
  showsKind token hmem := htokens token ((List.takeWhile_sublist _).subset hmem)

namespace Program

/-- A program is only read from tokens that derive it, all of those before the first end mark. -/
theorem derives_of_ofTokens {tokens : List Token} {program : Program}
    (htokens : ∀ token ∈ tokens, token.kind ∈ Kind.comparisons →
      token.kind.spelling? = some token.text)
    (h : ofTokens tokens = .ok program) :
    DerivesBody ((tokens.takeWhile fun token => token.kind ≠ .endOfFile).map Token.lexeme)
      program := by
  have hready : (Cursor.ofTokens tokens).Ready := Cursor.ready_ofTokens htokens
  rw [ofTokens] at h
  split at h
  case h_1 stmts hstmts =>
    obtain rfl := Except.ok.inj h
    exact Parser.statements_sound hready (le_refl _) hstmts
  case h_2 => simp at h

/-- A declaration that compares, with a token behind the end mark. -/
theorem derives_of_ofTokens_comparing :
    let token (kind : Kind) (text : String) : Token := .plain kind text (Span.point 0)
    let written := [token .letWord "let", token .identifier "a", token .equals "=",
      token .identifier "b", token .lesserEquals "<=", token .openBracket "[",
      token .string "c", token .comma ",", token .closeBracket "]", token .semicolon ";"]
    let program : Program := [.declare false "a" (some (.binary .lessEqual (.name "b")
      (.array [.string "c"])))]
    ofTokens (written ++ [Token.endOfFile 0, token .colon ":"]) = .ok program ∧
      DerivesBody (written.map Token.lexeme) program := by
  intro token written program
  have h : ofTokens (written ++ [Token.endOfFile 0, token .colon ":"]) = .ok program := rfl
  exact ⟨h, derives_of_ofTokens (by decide) h⟩

end Program
end Script
