import Script.Proofs.Program.Twins

namespace Script

namespace Cursor

structure Alike (c d : Cursor) : Prop where
  ahead : c.ahead.map Token.lexeme = d.ahead.map Token.lexeme
  stop : c.stop.lexeme = d.stop.lexeme

namespace Alike

variable {c d : Cursor}

theorem current (h : c.Alike d) : c.current.lexeme = d.current.lexeme := by
  have hhead := congrArg List.head? h.ahead
  rw [List.head?_map, List.head?_map] at hhead
  unfold Cursor.current
  cases hc : c.ahead.head? with
  | none =>
    rw [hc] at hhead
    rw [Option.map_eq_none_iff.mp hhead.symm]
    exact h.stop
  | some token =>
    rw [hc] at hhead
    obtain ⟨token', hd, htoken⟩ := Option.map_eq_some_iff.mp hhead.symm
    rw [hd]
    exact htoken.symm

theorem kind (h : c.Alike d) : c.current.kind = d.current.kind :=
  congrArg Lexeme.kind h.current

theorem next (h : c.Alike d) : c.next.Alike d.next :=
  ⟨by simp only [Cursor.next, List.map_tail, h.ahead], h.stop⟩

end Alike

/-- A list without an end mark gets one, and that has the same text everywhere. -/
theorem alike_ofTokens {tokens tokens' : List Token}
    (h : tokens.map Token.lexeme = tokens'.map Token.lexeme) :
    (ofTokens tokens).Alike (ofTokens tokens') := by
  constructor
  · have hahead : ∀ ts : List Token, (ofTokens ts).ahead.map Token.lexeme =
        (ts.map Token.lexeme).takeWhile fun lexeme => lexeme.kind ≠ .endOfFile := by
      intro ts
      rw [List.takeWhile_map]
      rfl
    rw [hahead, hahead, h]
  · have hstop : ∀ ts : List Token, (ofTokens ts).stop.lexeme =
        ((ts.map Token.lexeme).find? fun lexeme => lexeme.kind = .endOfFile).getD
          ⟨.endOfFile, "EndOfFile"⟩ := by
      intro ts
      rw [List.find?_map, ofTokens]
      show _ = (Option.map Token.lexeme (ts.find? fun token => token.kind = .endOfFile)).getD _
      cases ts.find? fun token => token.kind = .endOfFile <;> rfl
    rw [hstop, hstop, h]

end Cursor

namespace Parser

variable {α β : Type} {V : α → α → Prop} {W : β → β → Prop}

/-- Two runs that end side by side: with values that belong together, or with errors of one
cause. -/
inductive Parallel (V : α → α → Prop) :
    EStateM.Result SyntaxError Cursor α → EStateM.Result SyntaxError Cursor α → Prop
  | ok {a b : α} {c d : Cursor} (hab : V a b) (hcd : c.Alike d) : Parallel V (.ok a c) (.ok b d)
  | error {e f : SyntaxError} {c d : Cursor} (hcause : e.cause = f.cause) (hcd : c.Alike d) :
    Parallel V (.error e c) (.error f d)

def Parallels (V : α → α → Prop) (p q : Parser α) : Prop :=
  ∀ c d : Cursor, c.Alike d → Parallel V (p c) (q d)

def SameLexeme (t u : Token) : Prop :=
  t.lexeme = u.lexeme

theorem SameLexeme.kind {t u : Token} (h : SameLexeme t u) : t.kind = u.kind :=
  congrArg Lexeme.kind h

theorem SameLexeme.text {t u : Token} (h : SameLexeme t u) : t.text = u.text :=
  congrArg Lexeme.text h

namespace Parallels

protected theorem pure {a b : α} (hab : V a b) : Parallels V (pure a) (pure b) :=
  fun _ _ hcd => .ok hab hcd

theorem fail (cause : SyntaxError.Cause) (span span' : Span) :
    Parallels V (fail cause span) (fail cause span') :=
  fun _ _ hcd => .error rfl hcd

protected theorem bind {p q : Parser α} {f g : α → Parser β} (hpq : Parallels V p q)
    (hfg : ∀ a b, V a b → Parallels W (f a) (g b)) : Parallels W (p >>= f) (q >>= g) := by
  intro c d hcd
  have hfirst := hpq c d hcd
  simp only [Bind.bind, EStateM.bind]
  generalize p c = r at hfirst
  generalize q d = r' at hfirst
  cases hfirst with
  | ok hab hcd => exact hfg _ _ hab _ _ hcd
  | error hcause hcd => exact .error hcause hcd

/-- The usual case: the first parser answers the same in both runs. -/
theorem andThen {p : Parser α} {f g : α → Parser β} (hp : Parallels Eq p p)
    (hfg : ∀ a, Parallels W (f a) (g a)) : Parallels W (p >>= f) (p >>= g) :=
  hp.bind fun a _ hab => hab ▸ hfg a

theorem ite {p q p' q' : Parser α} (hthen : Parallels V p q) (helse : Parallels V p' q')
    (b : Bool) : Parallels V (if b = true then p else p') (if b = true then q else q') := by
  cases b with
  | true => exact hthen
  | false => exact helse

end Parallels

theorem parallels_peek : Parallels SameLexeme peek peek :=
  fun _ _ hcd => .ok hcd.current hcd

theorem parallels_advance : Parallels SameLexeme advance advance :=
  fun _ _ hcd => .ok hcd.current hcd.next

theorem parallels_check (kind : Kind) : Parallels Eq (check kind) (check kind) :=
  fun _ _ hcd => .ok (by rw [hcd.kind]) hcd

theorem parallels_accept (kind : Kind) : Parallels Eq (accept kind) (accept kind) :=
  (parallels_check kind).andThen fun b =>
    .ite (parallels_advance.bind fun _ _ _ => .pure rfl) (.pure rfl) b

/-- Failing at the next token, for a cause that only its lexeme tells. -/
theorem parallels_failHere {cause : Token → SyntaxError.Cause}
    (hcause : ∀ t u, SameLexeme t u → cause t = cause u) :
    Parallels V (peek >>= fun token => Parser.fail (cause token) token.span)
      (peek >>= fun token => Parser.fail (cause token) token.span) := by
  refine parallels_peek.bind fun t u htu => ?_
  rw [hcause t u htu]
  exact .fail _ _ _

theorem parallels_expect (kind : Kind) : Parallels SameLexeme (expect kind) (expect kind) :=
  (parallels_check kind).andThen fun b =>
    .ite parallels_advance (parallels_failHere fun _ _ htu => by rw [htu.kind]) b

theorem parallels_identifier (role : NameRole) :
    Parallels SameLexeme (identifier role) (identifier role) :=
  (parallels_check .identifier).andThen fun b =>
    .ite parallels_advance (parallels_failHere fun _ _ htu => by rw [htu.kind]) b

theorem parallels_atCloser (closer : Kind) : Parallels Eq (atCloser closer) (atCloser closer) :=
  (parallels_check closer).andThen fun _ => (parallels_check .endOfFile).andThen fun _ => .pure rfl

/-- A list ends with its closing token. -/
theorem parallels_close (closer : Kind) (a : α) :
    Parallels Eq (do let _ ← expect closer; return a) (do let _ ← expect closer; return a) :=
  (parallels_expect closer).bind fun _ _ _ => .pure rfl

section Expressions

theorem parallels_chain {operator? : Token → Option Operator} (hoperator : Tokenwise operator?)
    {operand : Parser Expr} (hoperand : Parallels Eq operand operand) (n : Nat) (left : Expr) :
    Parallels Eq (chain operator? operand n left) (chain operator? operand n left) := by
  induction n generalizing left with
  | zero => exact .pure rfl
  | succ n ih =>
    refine parallels_peek.bind fun t u htu => ?_
    rw [hoperator.congr htu]
    cases operator? u with
    | none => exact .pure rfl
    | some operator =>
      exact parallels_advance.bind fun _ _ _ => hoperand.andThen fun right => ih _

variable {nested : Parser Expr} (hnested : Parallels Eq nested nested)

include hnested

theorem parallels_items (closer : Kind) (n : Nat) :
    Parallels Eq (items nested closer n) (items nested closer n) := by
  induction n with
  | zero => exact parallels_close closer []
  | succ n ih =>
    refine (parallels_atCloser closer).andThen fun b => .ite (parallels_close closer []) ?_ b
    refine hnested.andThen fun item => (parallels_accept .comma).andThen fun b => .ite ?_ ?_ b
    · exact ih.andThen fun rest => .pure rfl
    · exact parallels_close closer [item]

theorem parallels_properties (n : Nat) :
    Parallels Eq (properties nested n) (properties nested n) := by
  induction n with
  | zero => exact parallels_close .closeBrace []
  | succ n ih =>
    have hrest : ∀ property, Parallels Eq (do return property :: (← properties nested n))
        (do return property :: (← properties nested n)) :=
      fun property => ih.andThen fun rest => .pure rfl
    refine (parallels_atCloser _).andThen fun b => .ite (parallels_close _ []) ?_ b
    refine (parallels_identifier _).bind fun key key' hkey => ?_
    rw [hkey.text]
    refine (parallels_accept .comma).andThen fun b => .ite (hrest _) ?_ b
    refine (parallels_check .closeBrace).andThen fun b => .ite (hrest _) ?_ b
    refine (parallels_accept .colon).andThen fun b =>
      .ite ?_ (parallels_failHere fun _ _ _ => rfl) b
    refine hnested.andThen fun value => (parallels_check .closeBrace).andThen fun b => ?_
    cases b with
    | true => exact hrest _
    | false => exact (parallels_expect .comma).bind fun _ _ _ => hrest _

theorem parallels_primary (n : Nat) : Parallels Eq (primary nested n) (primary nested n) := by
  refine parallels_advance.bind fun t u htu => ?_
  rw [htu.kind, htu.text]
  cases u.kind with
  | identifier => exact .pure rfl
  | number =>
    cases Number.read? u.text with
    | some value => exact .pure rfl
    | none => exact .fail _ _ _
  | string => exact .pure rfl
  | openParen => exact hnested.andThen fun inner => parallels_close .closeParen inner
  | openBracket => exact (parallels_items hnested _ n).andThen fun _ => .pure rfl
  | _ => exact .fail _ _ _

theorem parallels_links (n : Nat) (e : Expr) :
    Parallels Eq (links nested n e) (links nested n e) := by
  induction n generalizing e with
  | zero => exact .pure rfl
  | succ n ih =>
    refine (parallels_accept .dot).andThen fun b => .ite ?_ ?_ b
    · refine (parallels_identifier _).bind fun property property' hproperty => ?_
      rw [hproperty.text]
      exact ih _
    refine (parallels_accept .openBracket).andThen fun b => .ite ?_ ?_ b
    · exact hnested.andThen fun property => (parallels_expect _).bind fun _ _ _ => ih _
    refine (parallels_accept .openParen).andThen fun b => .ite ?_ (.pure rfl) b
    exact (parallels_items hnested _ n).andThen fun arguments => ih _

theorem parallels_comparison (n : Nat) :
    Parallels Eq (comparison nested n) (comparison nested n) := by
  have hchained : ∀ {operator? : Token → Option Operator} {operand : Parser Expr},
      Tokenwise operator? → Parallels Eq operand operand →
        Parallels Eq (operand >>= chain operator? operand n)
          (operand >>= chain operator? operand n) :=
    fun hoperator hoperand => hoperand.andThen (parallels_chain hoperator hoperand n)
  have hlinked : Parallels Eq (linked nested n) (linked nested n) :=
    (parallels_primary hnested n).andThen (parallels_links hnested n)
  exact hchained tokenwise_comparison? (hchained (tokenwise_arithmetic? ["+", "-"])
    (hchained (tokenwise_arithmetic? ["*", "/", "%"]) hlinked))

theorem parallels_object (n : Nat) : Parallels Eq (object nested n) (object nested n) := by
  refine (parallels_accept .openBrace).andThen fun b => .ite ?_ (parallels_comparison hnested n) b
  exact (parallels_properties hnested n).andThen fun _ => .pure rfl

omit hnested

theorem parallels_expression (n : Nat) : Parallels Eq (expression n) (expression n) := by
  induction n with
  | zero => exact parallels_failHere fun _ _ htu => by rw [htu.kind]
  | succ n ih =>
    refine (parallels_object ih n).andThen fun left => ?_
    refine (parallels_accept .equals).andThen fun b => ?_
    exact .ite (ih.andThen fun value => .pure rfl) (.pure rfl) b

end Expressions

theorem parallels_parameters (n : Nat) : Parallels Eq (parameters n) (parameters n) := by
  induction n with
  | zero => exact (parallels_identifier _).bind fun _ _ hname => .pure (by rw [hname.text])
  | succ n ih =>
    refine (parallels_identifier _).bind fun name name' hname => ?_
    rw [hname.text]
    refine (parallels_accept .comma).andThen fun b => ?_
    exact .ite (ih.andThen fun _ => .pure rfl) (.pure rfl) b

theorem parallels_block {statement : Parser Stmt} (hstatement : Parallels Eq statement statement)
    (n : Nat) : Parallels Eq (block statement n) (block statement n) := by
  induction n with
  | zero => exact parallels_close .closeBrace []
  | succ n ih =>
    refine (parallels_atCloser _).andThen fun b => .ite (parallels_close _ []) ?_ b
    refine (parallels_accept .semicolon).andThen fun b => .ite ih ?_ b
    exact hstatement.andThen fun first => ih.andThen fun rest => .pure rfl

theorem parallels_declaration (n : Nat) : Parallels Eq (declaration n) (declaration n) := by
  refine parallels_advance.bind fun keyword keyword' hkeyword => ?_
  rw [hkeyword.kind]
  refine (parallels_identifier _).bind fun name name' hname => ?_
  rw [hname.text]
  refine (parallels_accept .equals).andThen fun b => .ite ?_ ?_ b
  · exact (parallels_expression n).andThen fun value => .pure rfl
  · exact .ite (.fail _ _ _) (.pure rfl) _

theorem parallels_function {statement : Parser Stmt}
    (hstatement : Parallels Eq statement statement) (n : Nat) :
    Parallels Eq (function statement n) (function statement n) := by
  refine (parallels_expect _).bind fun _ _ _ => (parallels_identifier _).bind ?_
  intro name name' hname
  rw [hname.text]
  refine (parallels_expect _).bind fun _ _ _ => (parallels_check _).andThen fun b => ?_
  have hbody : ∀ names : List String, Parallels Eq
      (do
        let _ ← expect .closeParen
        let _ ← expect .openBrace
        return Stmt.function name'.text names (← block statement n))
      (do
        let _ ← expect .closeParen
        let _ ← expect .openBrace
        return Stmt.function name'.text names (← block statement n)) := fun names =>
    (parallels_expect _).bind fun _ _ _ => (parallels_expect _).bind fun _ _ _ =>
      (parallels_block hstatement n).andThen fun _ => .pure rfl
  cases b with
  | true => exact hbody []
  | false => exact (parallels_parameters n).andThen hbody

theorem parallels_statement (n : Nat) : Parallels Eq (statement n) (statement n) := by
  induction n with
  | zero => exact (parallels_expression 0).andThen fun _ => .pure rfl
  | succ n ih =>
    rw [statement_succ]
    refine Parallels.andThen ?_ fun stmt => (parallels_accept .semicolon).andThen fun _ => .pure rfl
    refine parallels_peek.bind fun t u htu => ?_
    rw [htu.kind]
    cases u.kind with
    | letWord | constWord => exact parallels_declaration n
    | funcWord => exact parallels_function ih n
    | ifWord | elseWord | forWord => exact .fail _ _ _
    | _ =>
      rw [map_eq_pure_bind]
      exact (parallels_expression (n + 1)).andThen fun _ => .pure rfl

/-- After an error both runs go on at the same token. -/
theorem map_lexeme_resume {tokens tokens' : List Token}
    (h : tokens.map Token.lexeme = tokens'.map Token.lexeme) :
    (resume tokens).map Token.lexeme = (resume tokens').map Token.lexeme := by
  induction tokens generalizing tokens' with
  | nil => rw [List.map_eq_nil_iff.mp h.symm]
  | cons t tokens ih =>
    obtain ⟨u, tokens', rfl, htu, htokens⟩ := List.map_eq_cons_iff.mp h.symm
    have hkind : u.kind = t.kind := congrArg Lexeme.kind htu
    rw [resume, resume, hkind]
    cases t.kind with
    | semicolon => exact htokens.symm
    | letWord | constWord | funcWord => exact h
    | _ => exact ih htokens.symm

theorem alike_resumed {c d : Cursor} (h : c.Alike d) :
    Cursor.Alike { c with ahead := resume c.ahead.tail }
      { d with ahead := resume d.ahead.tail } := by
  refine ⟨map_lexeme_resume ?_, h.stop⟩
  rw [List.map_tail, List.map_tail, h.ahead]

theorem statements_alike (n : Nat) {c d : Cursor} (h : c.Alike d) :
    (statements n c).1 = (statements n d).1 ∧
      (statements n c).2.map SyntaxError.cause = (statements n d).2.map SyntaxError.cause := by
  induction n generalizing c d with
  | zero => exact ⟨rfl, rfl⟩
  | succ n ih =>
    have hstatement := parallels_statement (n + 1) c d h
    rw [statements, statements, h.kind]
    generalize statement (n + 1) c = r at hstatement
    generalize statement (n + 1) d = r' at hstatement
    cases d.current.kind with
    | endOfFile => exact ⟨rfl, rfl⟩
    | semicolon => exact ih h.next
    | _ =>
      cases hstatement with
      | ok hstmt hcd =>
        obtain ⟨hstmts, herrors⟩ := ih hcd
        exact ⟨congrArg₂ List.cons hstmt hstmts, herrors⟩
      | error hcause hcd =>
        obtain ⟨hstmts, herrors⟩ := ih (alike_resumed hcd)
        exact ⟨hstmts, congrArg₂ List.cons hcause herrors⟩

end Parser

namespace SyntaxError

def wording (error : SyntaxError) : String × String × Option String :=
  (error.message, error.label, error.help?)

theorem map_wording {errors errors' : List SyntaxError}
    (h : errors.map cause = errors'.map cause) : errors.map wording = errors'.map wording := by
  have hcause : wording = (fun c : Cause => (c.message, c.label, c.help?)) ∘ cause := rfl
  rw [hcause, ← List.map_map, h, List.map_map]

end SyntaxError

namespace Program

/-- Tokens of the same kinds and texts are the same program, or their errors are worded the same one
by one. Spans and texts as written do not matter. -/
theorem ofTokens_wording {tokens tokens' : List Token}
    (h : tokens.map Token.lexeme = tokens'.map Token.lexeme) :
    (ofTokens tokens).mapError (List.map SyntaxError.wording) =
      (ofTokens tokens').mapError (List.map SyntaxError.wording) := by
  have hcursor := Cursor.alike_ofTokens h
  have hlength := congrArg List.length hcursor.ahead
  rw [List.length_map, List.length_map] at hlength
  obtain ⟨hstmts, hcauses⟩ :=
    Parser.statements_alike (Cursor.ofTokens tokens).ahead.length hcursor
  rw [ofTokens, ofTokens, ← hlength]
  generalize Parser.statements _ (Cursor.ofTokens tokens) = result at hstmts hcauses
  generalize Parser.statements _ (Cursor.ofTokens tokens') = result' at hstmts hcauses
  obtain ⟨stmts, errors⟩ := result
  obtain ⟨stmts', errors'⟩ := result'
  have hwording := SyntaxError.map_wording hcauses
  cases errors with
  | nil =>
    obtain rfl : errors' = [] := List.map_eq_nil_iff.mp hcauses.symm
    exact congrArg Except.ok hstmts
  | cons error rest =>
    obtain ⟨error', rest', rfl, -, -⟩ := List.map_eq_cons_iff.mp hcauses.symm
    exact congrArg Except.error hwording

/-- A reserved word and a constant without a value are two errors, wherever they stand. -/
theorem ofTokens_wording_moved :
    let tokens : List Token := [.plain .ifWord "if" ⟨0, 2⟩, .plain .semicolon ";" ⟨2, 3⟩,
      .plain .constWord "const" ⟨4, 9⟩, .plain .identifier "x" ⟨10, 11⟩]
    let moved : List Token := [⟨.ifWord, "if", "IF", ⟨1, 0⟩⟩, .plain .semicolon ";" ⟨0, 0⟩,
      ⟨.constWord, "const", "", ⟨9, 3⟩⟩, ⟨.identifier, "x", "y", ⟨4, 4⟩⟩]
    tokens.map Token.lexeme = moved.map Token.lexeme ∧
      (ofTokens tokens).mapError (List.map SyntaxError.wording) =
        (ofTokens moved).mapError (List.map SyntaxError.wording) ∧
      ∃ first second, (ofTokens moved).mapError (List.map SyntaxError.wording) =
        .error [first, second] := by
  intro tokens moved
  have h : tokens.map Token.lexeme = moved.map Token.lexeme := rfl
  exact ⟨h, ofTokens_wording h, _, _, rfl⟩

end Program
end Script
