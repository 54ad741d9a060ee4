import Script.Proofs.Program.Cursor
import Script.Proofs.Program.Grammar

namespace Script

namespace Level

def rank : Level → Nat
  | assignment => 0
  | object => 1
  | comparison => 2
  | additive => 3
  | multiplicative => 4
  | linked => 5
  | primary => 6

theorem rank_operand {level operand : Level} (h : level.operand? = some operand) :
    operand.rank = level.rank + 1 := by
  cases level <;> cases h <;> rfl

end Level

/-- The level of the expressions that a token goes on with. -/
def Token.joins? (token : Token) : Option Level :=
  match token.kind with
  | .equals => some .assignment
  | .operator | .equalsCompare | .notEqualsCompare | .greater | .greaterEquals | .lesser
  | .lesserEquals => (Operator.ofSymbol? token.text).map Operator.level
  | .dot | .openBracket | .openParen => some .linked
  | _ => none

def Level.Stops (level : Level) (token : Token) : Prop :=
  ∀ joined, token.joins? = some joined → joined.rank < level.rank

namespace Level

variable {level : Level} {token : Token}

theorem Stops.mono {tighter : Level} (h : level.Stops token) (hrank : level.rank ≤ tighter.rank) :
    tighter.Stops token :=
  fun joined hjoined => lt_of_lt_of_le (h joined hjoined) hrank

theorem stops_of_kind (h : token.kind ∈ [.comma, .colon, .semicolon, .closeParen, .closeBracket,
    .closeBrace]) : level.Stops token := by
  intro joined hjoined
  have hnone : token.joins? = none := by
    simp only [List.mem_cons, List.not_mem_nil, or_false] at h
    rcases h with h | h | h | h | h | h <;> simp [Token.joins?, h]
  rw [hnone] at hjoined
  cases hjoined

theorem joins?_ne_primary : token.joins? ≠ some primary := by
  intro h
  rw [Token.joins?] at h
  split at h <;> simp at h
  all_goals
    obtain ⟨operator, -, hlevel⟩ := h
    cases operator <;> cases hlevel

theorem stops_primary : primary.Stops token := by
  intro joined hjoined
  have hne : joined ≠ primary := fun h => joins?_ne_primary (h ▸ hjoined)
  cases joined <;> simp_all [rank]

theorem Stops.of_sign {operator : Operator} (h : token.lexeme = operator.sign)
    (hrank : operator.level.rank < level.rank) : level.Stops token := by
  intro joined hjoined
  have hkind : token.kind = operator.kind := congrArg Lexeme.kind h
  have htext : token.text = operator.symbol := congrArg Lexeme.text h
  have hlevel : token.joins? = some operator.level := by
    rw [Token.joins?, hkind, htext, Operator.ofSymbol?_symbol]
    cases operator <;> rfl
  rw [hlevel] at hjoined
  obtain rfl := Option.some.inj hjoined
  exact hrank

end Level

namespace Parser

variable {nested : Parser Expr} {n : Nat} {c c₁ c' : Cursor}

theorem links_member {object : Expr} (hdot : c.current.kind = .dot)
    (hname : c.next.current.kind = .identifier) : links nested (n + 1) object c =
      links nested n (.member object (.name c.next.current.text) false) c.next.next := by
  rw [links, accept_bind, if_pos hdot, if_pos rfl, identifier_bind hname]

theorem links_index {object property : Expr} (hopener : c.current.kind = .openBracket)
    (hproperty : nested c.next = .ok property c₁) (hcloser : c₁.current.kind = .closeBracket) :
    links nested (n + 1) object c = links nested n (.member object property true) c₁.next := by
  have hdot : c.current.kind ≠ .dot := by rw [hopener]; decide
  rw [links, accept_bind, if_neg hdot, if_neg (by simp), accept_bind, if_pos hopener, if_pos rfl,
    bind_of_ok hproperty, expect_bind hcloser]

theorem links_call {callee : Expr} {arguments : List Expr} (hopener : c.current.kind = .openParen)
    (harguments : items nested .closeParen n c.next = .ok arguments c₁) :
    links nested (n + 1) callee c = links nested n (.call callee arguments) c₁ := by
  have hdot : c.current.kind ≠ .dot := by rw [hopener]; decide
  have hbracket : c.current.kind ≠ .openBracket := by rw [hopener]; decide
  rw [links, accept_bind, if_neg hdot, if_neg (by simp), accept_bind, if_neg hbracket,
    if_neg (by simp), accept_bind, if_pos hopener, if_pos rfl, bind_of_ok harguments]

theorem links_stop {e : Expr} (h : Level.linked.Stops c.current) :
    links nested n e c = .ok e c := by
  have hkind : ∀ kind ∈ [.dot, .openBracket, .openParen], c.current.kind ≠ kind := by
    intro kind hmem hkind
    refine absurd (h .linked ?_) (lt_irrefl _)
    simp only [List.mem_cons, List.not_mem_nil, or_false] at hmem
    rcases hmem with rfl | rfl | rfl <;> rw [Token.joins?, hkind]
  cases n with
  | zero => rfl
  | succ n =>
    rw [links, accept_bind, if_neg (hkind _ (by simp)), if_neg (by simp), accept_bind,
      if_neg (hkind _ (by simp)), if_neg (by simp), accept_bind, if_neg (hkind _ (by simp)),
      if_neg (by simp)]
    rfl

theorem chain_sign {operator? : Token → Option Operator} {operand : Parser Expr}
    {operator : Operator} {left right : Expr} (hsign : operator? c.current = some operator)
    (hright : operand c.next = .ok right c₁) : chain operator? operand (n + 1) left c =
      chain operator? operand n (.binary operator left right) c₁ := by
  rw [chain, peek_bind, hsign]
  simp only [advance_bind]
  rw [bind_of_ok hright]

theorem chain_stop {operator? : Token → Option Operator} {operand : Parser Expr} {e : Expr}
    (h : operator? c.current = none) : chain operator? operand n e c = .ok e c := by
  cases n with
  | zero => rfl
  | succ n =>
    rw [chain, peek_bind, h]
    rfl

theorem items_last {closer : Kind} {item : Expr}
    (hopen : ¬(c.current.kind = closer ∨ c.current.kind = .endOfFile))
    (hitem : nested c = .ok item c₁) (hcomma : closer ≠ .comma)
    (hcloser : c₁.current.kind = closer) :
    items nested closer (n + 1) c = .ok [item] c₁.next := by
  rw [items, atCloser_bind, decide_eq_false hopen, if_neg (by simp), bind_of_ok hitem,
    accept_bind, if_neg (hcloser ▸ hcomma), if_neg (by simp), expect_bind hcloser]
  rfl

theorem items_cons {closer : Kind} {item : Expr} {rest : List Expr}
    (hopen : ¬(c.current.kind = closer ∨ c.current.kind = .endOfFile))
    (hitem : nested c = .ok item c₁) (hcomma : c₁.current.kind = .comma)
    (hrest : items nested closer n c₁.next = .ok rest c') :
    items nested closer (n + 1) c = .ok (item :: rest) c' := by
  rw [items, atCloser_bind, decide_eq_false hopen, if_neg (by simp), bind_of_ok hitem,
    accept_bind, if_pos hcomma, if_pos rfl, bind_of_ok hrest]
  rfl

inductive Separated : Cursor → Cursor → Prop
  | closed {c : Cursor} (h : c.current.kind = .closeBrace) : Separated c c
  | comma {c : Cursor} (h : c.current.kind = .comma) : Separated c c.next

theorem properties_copied {rest : List Property} (hkey : c.current.kind = .identifier)
    (hseparated : Separated c.next c₁) (hrest : properties nested n c₁ = .ok rest c') :
    properties nested (n + 1) c = .ok (.copied c.current.text :: rest) c' := by
  have hopen : ¬(c.current.kind = .closeBrace ∨ c.current.kind = .endOfFile) := by
    rw [hkey]
    decide
  rw [properties, atCloser_bind, decide_eq_false hopen, if_neg (by simp), identifier_bind hkey]
  cases hseparated with
  | closed hclosed =>
    have hcomma : c.next.current.kind ≠ .comma := by rw [hclosed]; decide
    rw [accept_bind, if_neg hcomma, if_neg (by simp), check_bind, decide_eq_true hclosed,
      if_pos rfl, bind_of_ok hrest]
    rfl
  | comma hcomma =>
    rw [accept_bind, if_pos hcomma, if_pos rfl, bind_of_ok hrest]
    rfl

theorem properties_given {value : Expr} {rest : List Property} {c₂ : Cursor}
    (hkey : c.current.kind = .identifier) (hcolon : c.next.current.kind = .colon)
    (hvalue : nested c.next.next = .ok value c₁) (hseparated : Separated c₁ c₂)
    (hrest : properties nested n c₂ = .ok rest c') :
    properties nested (n + 1) c = .ok (.given c.current.text value :: rest) c' := by
  have hopen : ¬(c.current.kind = .closeBrace ∨ c.current.kind = .endOfFile) := by
    rw [hkey]
    decide
  have hcomma : c.next.current.kind ≠ .comma := by rw [hcolon]; decide
  have hclosed : c.next.current.kind ≠ .closeBrace := by rw [hcolon]; decide
  rw [properties, atCloser_bind, decide_eq_false hopen, if_neg (by simp), identifier_bind hkey,
    accept_bind, if_neg hcomma, if_neg (by simp), check_bind, decide_eq_false hclosed,
    if_neg (by simp), accept_bind, if_pos hcolon, if_pos rfl, bind_of_ok hvalue, check_bind]
  cases hseparated with
  | closed hclosed =>
    rw [decide_eq_true hclosed]
    exact bind_of_ok hrest
  | comma hcomma =>
    have hclosed : c₁.current.kind ≠ .closeBrace := by rw [hcomma]; decide
    rw [decide_eq_false hclosed]
    exact (expect_bind hcomma _).trans (bind_of_ok hrest)

end Parser

namespace Level

open Script.Parser

/-- Reads an expression of the level. Both this and `loop` go by a bound on the tokens ahead. -/
def parser (level : Level) (n : Nat) : Parser Expr :=
  match level with
  | assignment => Parser.expression (n + 1)
  | object => Parser.object (expression n) n
  | comparison => Parser.comparison (expression n) n
  | additive => Parser.additive (expression n) n
  | multiplicative => Parser.multiplicative (expression n) n
  | linked => Parser.linked (expression n) n
  | primary => Parser.primary (expression n) n

def operator? : Level → Token → Option Operator
  | comparison => comparison?
  | additive => arithmetic? ["+", "-"]
  | multiplicative => arithmetic? ["*", "/", "%"]
  | _ => fun _ => none

def loop (level : Level) (n m : Nat) (e : Expr) : Parser Expr :=
  match level with
  | comparison => chain comparison? (additive.parser n) m e
  | additive => chain (arithmetic? ["+", "-"]) (multiplicative.parser n) m e
  | multiplicative => chain (arithmetic? ["*", "/", "%"]) (linked.parser n) m e
  | linked => links (expression n) m e
  | assignment | object | primary => pure e

variable {level operand : Level} {n m : Nat} {e : Expr} {c : Cursor}

theorem parser_eq (h : level.operand? = some operand) :
    level.parser n = operand.parser n >>= level.loop n n := by
  cases level <;> cases h <;> rfl

theorem loop_eq {operator : Operator} (h : operator.level.operand? = some operand) :
    operator.level.loop n m e = chain operator.level.operator? (operand.parser n) m e := by
  cases operator <;> cases h <;> rfl

theorem operator?_sign {operator : Operator} {token : Token} (h : token.lexeme = operator.sign) :
    operator.level.operator? token = some operator := by
  have hkind : token.kind = operator.kind := congrArg Lexeme.kind h
  have htext : token.text = operator.symbol := congrArg Lexeme.text h
  have hsymbol := Operator.ofSymbol?_symbol operator
  cases operator <;>
    simp_all [Operator.level, operator?, comparison?, arithmetic?, Operator.kind, Operator.symbol]

theorem arithmetic?_joins {symbols : List String} {token : Token} {operator : Operator}
    (h : arithmetic? symbols token = some operator) :
    token.joins? = some operator.level ∧ operator.symbol ∈ symbols := by
  rw [arithmetic?] at h
  split at h
  case isTrue hsign =>
    refine ⟨?_, Operator.symbol_of_ofSymbol? h ▸ hsign.2⟩
    rw [Token.joins?, hsign.1, h]
    rfl
  case isFalse => simp at h

theorem comparison?_joins {token : Token} {operator : Operator}
    (h : comparison? token = some operator) : token.joins? = some operator.level := by
  rw [comparison?] at h
  rw [Token.joins?]
  split at h <;> simp_all

theorem operator?_joins {token : Token} {operator : Operator}
    (h : level.operator? token = some operator) :
    token.joins? = some operator.level ∧ level.rank ≤ operator.level.rank := by
  cases level with
  | comparison =>
    refine ⟨comparison?_joins h, ?_⟩
    cases operator <;> decide
  | additive | multiplicative =>
    obtain ⟨hjoins, hmem⟩ := arithmetic?_joins h
    refine ⟨hjoins, ?_⟩
    revert hmem
    cases operator <;> decide
  | _ => simp [operator?] at h

theorem loop_stop (h : level.Stops c.current) : level.loop n m e c = .ok e c := by
  have hoperator : level.operator? c.current = none := by
    cases hsome : level.operator? c.current with
    | none => rfl
    | some operator =>
      obtain ⟨hjoins, hrank⟩ := operator?_joins hsome
      exact absurd (h _ hjoins) (not_lt.mpr hrank)
  cases level with
  | comparison | additive | multiplicative => exact chain_stop hoperator
  | linked => exact links_stop h
  | _ => rfl

theorem expression_eq (h : 0 < n) : expression n = assignment.parser (n - 1) := by
  rw [parser, Nat.sub_add_cancel h]

end Level

/-- Whatever goes on with an expression of the level, it stops the operand before it. -/
theorem DerivesLinks.stops {level operand : Level} {ls : List Lexeme} {e e' : Expr}
    {c c' : Cursor} (h : DerivesLinks level e ls e') (hlevel : level.operand? = some operand)
    (hsteps : c.Steps ls c') (hstops : level.Stops c'.current) : operand.Stops c.current := by
  have hrank := Level.rank_operand hlevel
  cases h with
  | nil =>
    obtain rfl := hsteps
    exact hstops.mono (by omega)
  | binary => exact .of_sign hsteps.2.1 (by omega)
  | member | index | call =>
    obtain rfl := Option.some.inj hlevel
    exact Level.stops_primary

theorem Derives.startsWith_current {level : Level} {ls : List Lexeme} {e : Expr} {c c' : Cursor}
    (h : Derives level ls e) (hsteps : c.Steps ls c') : level.StartsWith c.current.kind := by
  obtain ⟨l, ms, rfl, hl⟩ := h.startsWith
  rw [← hsteps.2.1] at hl
  exact hl

theorem Level.StartsWith.ne_openBrace {kind : Kind} (h : Level.comparison.StartsWith kind) :
    kind ≠ .openBrace := by
  rintro rfl
  rcases h with h | h
  · exact absurd h (by decide)
  · simp at h

theorem Level.StartsWith.not_closing {level : Level} {kind closer : Kind}
    (h : level.StartsWith kind) (hcloser : closer = .closeParen ∨ closer = .closeBracket) :
    ¬(kind = closer ∨ kind = .endOfFile) := by
  rcases h with h | h
  · simp only [Kind.openers, List.mem_cons, List.not_mem_nil, or_false] at h
    rcases h with rfl | rfl | rfl | rfl | rfl <;> rcases hcloser with rfl | rfl <;> decide
  · rw [h.1]
    rcases hcloser with rfl | rfl <;> decide

theorem Parser.Separated.stops {level : Level} {c c' : Cursor} (h : Parser.Separated c c') :
    level.Stops c.current := by
  cases h with
  | closed h => exact Level.stops_of_kind (by rw [h]; decide)
  | comma h => exact Level.stops_of_kind (by rw [h]; decide)

open Script.Parser

mutual

theorem Derives.parses {level : Level} {ls : List Lexeme} {e : Expr} :
    Derives level ls e → ∀ ⦃n : Nat⦄ ⦃c c' : Cursor⦄, c.Steps ls c' → ls.length ≤ n + 1 →
      level.Stops c'.current → level.parser n c = .ok e c'
  | .value h => by
    intro n c c' hsteps hn hstops
    have hvalue : Parser.object (expression n) n c = _ :=
      h.parses hsteps hn (hstops.mono (by decide))
    have hequals : c'.current.kind ≠ .equals := by
      intro hkind
      exact absurd (hstops .assignment (by rw [Token.joins?, hkind])) (by decide)
    rw [Level.parser, expression, bind_of_ok hvalue, accept_bind, if_neg hequals]
    rfl
  | .assign htarget hequals hvalue => by
    intro n c c' hsteps hn hstops
    have hpos := htarget.length_pos
    have hpos' := hvalue.length_pos
    simp only [List.length_append, List.length_cons] at hn
    obtain ⟨c₁, hls, _, hl, hms⟩ := Cursor.steps_append.mp hsteps
    have hkind : c₁.current.kind = .equals := (congrArg Lexeme.kind hl).trans hequals
    -- An equals sign joins at the level of assignments only, so the target ends before it.
    have hstop : Level.object.Stops c₁.current := by
      intro joined hjoined
      rw [Token.joins?, hkind] at hjoined
      obtain rfl := Option.some.inj hjoined
      decide
    have htarget : Parser.object (expression n) n c = _ := htarget.parses hls (by omega) hstop
    have hvalue := hvalue.parses hms (by omega : _ ≤ n - 1 + 1) hstops
    rw [← Level.expression_eq (by omega)] at hvalue
    rw [Level.parser, expression, bind_of_ok htarget, accept_bind, if_pos hkind, if_pos rfl,
      bind_of_ok hvalue]
    rfl
  | .operand h => by
    intro n c c' hsteps hn hstops
    -- No operand starts with a brace: that would be taken for an object.
    have hbrace := (h.startsWith_current hsteps).ne_openBrace
    rw [Level.parser, Parser.object, accept_bind, if_neg hbrace, if_neg (by simp)]
    exact h.parses hsteps hn (hstops.mono (by decide))
  | .object hopener h hcloser => by
    intro n c c' hsteps hn hstops
    simp only [List.length_append, List.length_cons, List.length_nil] at hn
    obtain ⟨hopener, c₁, hls, hcloser, rfl⟩ := hsteps.enclosed hopener hcloser
    have hproperties := h.parses hls hcloser (by omega : _ ≤ n) (le_refl n)
    rw [Level.parser, Parser.object, accept_bind, if_pos hopener, if_pos rfl,
      bind_of_ok hproperties]
    rfl
  | .chain hlevel hfirst hlinks => by
    intro n c c' hsteps hn hstops
    have hpos := hfirst.length_pos
    rw [List.length_append] at hn
    obtain ⟨c₁, hls, hms⟩ := Cursor.steps_append.mp hsteps
    have hfirst := hfirst.parses hls (by omega : _ ≤ n + 1) (hlinks.stops hlevel hms hstops)
    rw [Level.parser_eq hlevel, bind_of_ok hfirst]
    exact hlinks.parses hms (by omega) (le_refl n) hstops
  | .number hl hvalue => by
    intro n c c' hsteps hn hstops
    obtain ⟨_, hlexeme, rfl⟩ := hsteps
    have hkind : c.current.kind = .number := (congrArg Lexeme.kind hlexeme).trans hl
    rw [← hlexeme] at hvalue
    simp only [Level.parser, Parser.primary, advance_bind, hkind]
    rw [show Number.read? c.current.text = _ from hvalue]
    rfl
  | .string hl => by
    intro n c c' hsteps hn hstops
    obtain ⟨_, rfl, rfl⟩ := hsteps
    rw [Level.parser, Parser.primary, advance_bind, show c.current.kind = _ from hl]
    rfl
  | .name hl => by
    intro n c c' hsteps hn hstops
    obtain ⟨_, rfl, rfl⟩ := hsteps
    rw [Level.parser, Parser.primary, advance_bind, show c.current.kind = _ from hl]
    rfl
  | .paren hopener h hcloser => by
    intro n c c' hsteps hn hstops
    have hpos := h.length_pos
    simp only [List.length_append, List.length_cons, List.length_nil] at hn
    obtain ⟨hopener, c₁, hls, hcloser, rfl⟩ := hsteps.enclosed hopener hcloser
    have hinner := h.parses hls (by omega : _ ≤ n - 1 + 1)
      (Level.stops_of_kind (by rw [hcloser]; decide))
    rw [← Level.expression_eq (by omega)] at hinner
    simp only [Level.parser, Parser.primary, advance_bind, hopener]
    rw [bind_of_ok hinner, expect_bind hcloser]
    rfl
  | .array hopener h hcloser => by
    intro n c c' hsteps hn hstops
    simp only [List.length_append, List.length_cons, List.length_nil] at hn
    obtain ⟨hopener, c₁, hls, hcloser, rfl⟩ := hsteps.enclosed hopener hcloser
    have helements := h.parses hls hcloser (.inr rfl) (by omega : _ < n) (le_refl n)
    simp only [Level.parser, Parser.primary, advance_bind, hopener]
    rw [bind_of_ok helements]
    rfl

theorem DerivesLinks.parses {level : Level} {ls : List Lexeme} {e e' : Expr} :
    DerivesLinks level e ls e' → ∀ ⦃n m : Nat⦄ ⦃c c' : Cursor⦄, c.Steps ls c' → ls.length ≤ m →
      m ≤ n → level.Stops c'.current → level.loop n m e c = .ok e' c'
  | .nil => by
    intro n m c c' hsteps hm hn hstops
    obtain rfl := hsteps
    exact Level.loop_stop hstops
  | .binary hlevel hright hlinks => by
    intro n m c c' hsteps hm hn hstops
    simp only [List.length_append, List.length_cons] at hm
    obtain ⟨m, rfl⟩ : ∃ k, m = k + 1 := ⟨m - 1, by omega⟩
    obtain ⟨_, hsign, hrest⟩ := hsteps
    obtain ⟨c₁, hls, hms⟩ := Cursor.steps_append.mp hrest
    -- What follows the right operand is the next sign or the end, and stops it either way.
    have hright := hright.parses hls (by omega : _ ≤ n + 1) (hlinks.stops hlevel hms hstops)
    have hlinks := hlinks.parses hms (by omega : _ ≤ m) (by omega : _ ≤ n) hstops
    rw [Level.loop_eq hlevel] at hlinks ⊢
    rw [chain_sign (Level.operator?_sign hsign) hright, hlinks]
  | .member hdot hname hlinks => by
    intro n m c c' hsteps hm hn hstops
    have ih := hlinks.parses
    simp only [List.length_cons] at hm
    obtain ⟨m, rfl⟩ : ∃ k, m = k + 1 := ⟨m - 1, by omega⟩
    obtain ⟨_, hl, _, rfl, hms⟩ := hsteps
    have hdot : c.current.kind = .dot := (congrArg Lexeme.kind hl).trans hdot
    exact (links_member hdot hname).trans (ih hms (by omega : _ ≤ m) (by omega : _ ≤ n) hstops)
  | .index hopener h hcloser hlinks => by
    intro n m c c' hsteps hm hn hstops
    have hpos := h.length_pos
    simp only [List.length_append, List.length_cons] at hm
    obtain ⟨m, rfl⟩ : ∃ k, m = k + 1 := ⟨m - 1, by omega⟩
    obtain ⟨hopener, c₁, hls, hcloser, hms⟩ := hsteps.enclosed hopener hcloser
    have hproperty := h.parses hls (by omega : _ ≤ n - 1 + 1)
      (Level.stops_of_kind (by rw [hcloser]; decide))
    rw [← Level.expression_eq (by omega)] at hproperty
    have hlinks := hlinks.parses hms (by omega : _ ≤ m) (by omega : _ ≤ n) hstops
    exact (links_index hopener hproperty hcloser).trans hlinks
  | .call hopener h hcloser hlinks => by
    intro n m c c' hsteps hm hn hstops
    simp only [List.length_append, List.length_cons] at hm
    obtain ⟨m, rfl⟩ : ∃ k, m = k + 1 := ⟨m - 1, by omega⟩
    obtain ⟨hopener, c₁, hls, hcloser, hms⟩ := hsteps.enclosed hopener hcloser
    have harguments := h.parses hls hcloser (.inl rfl) (by omega : _ < m) (by omega : _ ≤ n)
    have hlinks := hlinks.parses hms (by omega : _ ≤ m) (by omega : _ ≤ n) hstops
    exact (links_call hopener harguments).trans hlinks

theorem DerivesItems.parses {ls : List Lexeme} {es : List Expr} :
    DerivesItems ls es → ∀ ⦃closer : Kind⦄ ⦃n m : Nat⦄ ⦃c c' : Cursor⦄, c.Steps ls c' →
      c'.current.kind = closer → closer = .closeParen ∨ closer = .closeBracket →
      ls.length < m → m ≤ n → items (expression n) closer m c = .ok es c'.next
  | .nil => by
    intro closer n m c c' hsteps hcloser hclosers hm hn
    obtain rfl := hsteps
    exact items_nil hcloser
  | .last h => by
    intro closer n m c c' hsteps hcloser hclosers hm hn
    have hpos := h.length_pos
    obtain ⟨m, rfl⟩ : ∃ k, m = k + 1 := ⟨m - 1, by omega⟩
    have hcomma : closer ≠ .comma := by rcases hclosers with rfl | rfl <;> decide
    have hstop : Level.assignment.Stops c'.current :=
      Level.stops_of_kind (by rw [hcloser]; rcases hclosers with rfl | rfl <;> decide)
    have hitem := h.parses hsteps (by omega : _ ≤ n - 1 + 1) hstop
    rw [← Level.expression_eq (by omega)] at hitem
    exact items_last ((h.startsWith_current hsteps).not_closing hclosers) hitem hcomma hcloser
  | .cons h hcomma hrest => by
    intro closer n m c c' hsteps hcloser hclosers hm hn
    have hpos := h.length_pos
    simp only [List.length_append, List.length_cons] at hm
    obtain ⟨m, rfl⟩ : ∃ k, m = k + 1 := ⟨m - 1, by omega⟩
    obtain ⟨c₁, hls, _, hl, hms⟩ := Cursor.steps_append.mp hsteps
    have hcomma : c₁.current.kind = .comma := (congrArg Lexeme.kind hl).trans hcomma
    have hitem := h.parses hls (by omega : _ ≤ n - 1 + 1)
      (Level.stops_of_kind (by rw [hcomma]; decide))
    rw [← Level.expression_eq (by omega)] at hitem
    have hrest := hrest.parses hms hcloser hclosers (by omega : _ < m) (by omega : _ ≤ n)
    exact items_cons ((h.startsWith_current hls).not_closing hclosers) hitem hcomma hrest

theorem DerivesProperties.parses {ls : List Lexeme} {properties : List Property} :
    DerivesProperties ls properties → ∀ ⦃n m : Nat⦄ ⦃c c' : Cursor⦄, c.Steps ls c' →
      c'.current.kind = .closeBrace → ls.length ≤ m → m ≤ n →
      Parser.properties (expression n) m c = .ok properties c'.next
  | .nil => by
    intro n m c c' hsteps hcloser hm hn
    obtain rfl := hsteps
    exact properties_nil hcloser
  | .last h => by
    intro n m c c' hsteps hcloser hm hn
    exact h.parses hsteps (.closed hcloser) hm hn (fun _ _ => properties_nil hcloser)
  | .cons h hcomma hrest => by
    intro n m c c' hsteps hcloser hm hn
    obtain ⟨c₁, hls, _, hl, hms⟩ := Cursor.steps_append.mp hsteps
    have hcomma : c₁.current.kind = .comma := (congrArg Lexeme.kind hl).trans hcomma
    simp only [List.length_append, List.length_cons] at hm
    refine h.parses hls (.comma hcomma) (by omega) hn ?_
    intro k hk
    exact hrest.parses hms hcloser (by omega) (by omega)

theorem DerivesProperty.parses {ls : List Lexeme} {property : Property} :
    DerivesProperty ls property → ∀ ⦃n m : Nat⦄ ⦃c c₁ c₂ c' : Cursor⦄ ⦃rest : List Property⦄,
      c.Steps ls c₁ → Separated c₁ c₂ → ls.length ≤ m → m ≤ n →
      (∀ k, m = k + 1 → Parser.properties (expression n) k c₂ = .ok rest c') →
      Parser.properties (expression n) m c = .ok (property :: rest) c'
  | .copied hkey => by
    intro n m c c₁ c₂ c' rest hsteps hseparated hm hn hrest
    simp only [List.length_cons, List.length_nil] at hm
    obtain ⟨m, rfl⟩ : ∃ k, m = k + 1 := ⟨m - 1, by omega⟩
    obtain ⟨_, rfl, rfl⟩ := hsteps
    exact properties_copied hkey hseparated (hrest m rfl)
  | .given hkey hcolon hvalue => by
    intro n m c c₁ c₂ c' rest hsteps hseparated hm hn hrest
    have hpos := hvalue.length_pos
    simp only [List.length_cons] at hm
    obtain ⟨m, rfl⟩ : ∃ k, m = k + 1 := ⟨m - 1, by omega⟩
    obtain ⟨_, rfl, _, hl, hls⟩ := hsteps
    have hcolon : c.next.current.kind = .colon := (congrArg Lexeme.kind hl).trans hcolon
    have hvalue := hvalue.parses hls (by omega : _ ≤ n - 1 + 1) hseparated.stops
    rw [← Level.expression_eq (by omega)] at hvalue
    exact properties_given hkey hcolon hvalue hseparated (hrest m rfl)

end

theorem DerivesNames.current_kind {ls : List Lexeme} {names : List String} {c c' : Cursor}
    (h : DerivesNames ls names) (hsteps : c.Steps ls c') : c.current.kind = .identifier := by
  cases h with
  | last hname => exact (congrArg Lexeme.kind hsteps.2.1).trans hname
  | cons hname => exact (congrArg Lexeme.kind hsteps.2.1).trans hname

theorem DerivesNames.parses {ls : List Lexeme} {names : List String} (h : DerivesNames ls names)
    {n : Nat} {c c' : Cursor} (hsteps : c.Steps ls c') (hcomma : c'.current.kind ≠ .comma)
    (hn : ls.length ≤ n + 1) : parameters n c = .ok names c' := by
  induction h generalizing n c with
  | last hname =>
    obtain ⟨_, rfl, rfl⟩ := hsteps
    cases n with
    | zero => exact identifier_bind hname _
    | succ n =>
      rw [parameters, identifier_bind hname, accept_bind, if_neg hcomma, if_neg (by simp)]
      rfl
  | cons hname hcomma' hrest ih =>
    simp only [List.length_cons] at hn
    obtain ⟨n, rfl⟩ : ∃ k, n = k + 1 := ⟨n - 1, by omega⟩
    obtain ⟨_, rfl, _, hl, hls⟩ := hsteps
    have hcomma' : c.next.current.kind = .comma := (congrArg Lexeme.kind hl).trans hcomma'
    rw [parameters, identifier_bind hname, accept_bind, if_pos hcomma', if_pos rfl,
      bind_of_ok (ih hls (by omega))]
    rfl

end Script
