import Script.Proofs.Program.Sequence
import Script.Proofs.Token.Order

namespace Script

namespace Cursor

variable {c c₁ c₂ : Cursor} {token : Token}

def Passes (c : Cursor) (passed : List Token) (c' : Cursor) : Prop :=
  c = c'.prepend passed

/-- Is the token passed on the way, or the next one to be read then? -/
def Sees (c c' : Cursor) (token : Token) : Prop :=
  ∃ passed, c.Passes passed c' ∧ (token ∈ passed ∨ token = c'.current)

def Leads (c c' : Cursor) : Prop :=
  ∃ passed, c.Passes passed c'

theorem Leads.refl (c : Cursor) : c.Leads c := ⟨[], rfl⟩

theorem leads_next (c : Cursor) : c.Leads c.next := by
  obtain ⟨ahead, stop⟩ := c
  cases ahead with
  | nil => exact .refl _
  | cons token ahead => exact ⟨[token], rfl⟩

theorem Passes.append {first second : List Token} (h : c.Passes first c₁)
    (h' : c₁.Passes second c₂) : c.Passes (first ++ second) c₂ := by
  unfold Passes prepend at *
  rw [h, h', List.append_assoc]

theorem Leads.trans (h : c.Leads c₁) (h' : c₁.Leads c₂) : c.Leads c₂ := by
  obtain ⟨first, h⟩ := h
  obtain ⟨second, h'⟩ := h'
  exact ⟨first ++ second, h.append h'⟩

theorem Leads.stop_eq (h : c.Leads c₁) : c₁.stop = c.stop := by
  obtain ⟨passed, rfl⟩ := h
  rfl

theorem sees_current (c : Cursor) : c.Sees c c.current :=
  ⟨[], rfl, .inr rfl⟩

theorem Sees.leads (h : c.Sees c₁ token) : c.Leads c₁ := by
  obtain ⟨passed, h, -⟩ := h
  exact ⟨passed, h⟩

theorem Leads.sees (h : c.Leads c₁) (hsees : c₁.Sees c₂ token) : c.Sees c₂ token := by
  obtain ⟨first, h⟩ := h
  obtain ⟨second, h', hmem⟩ := hsees
  exact ⟨first ++ second, h.append h', hmem.imp_left (List.mem_append_right first)⟩

/-- What has been seen stays seen. -/
theorem Sees.trans (hsees : c.Sees c₁ token) (h : c₁.Leads c₂) : c.Sees c₂ token := by
  obtain ⟨first, hfirst, hmem⟩ := hsees
  obtain ⟨second, hsecond⟩ := h
  refine ⟨first ++ second, hfirst.append hsecond, ?_⟩
  rcases hmem with hmem | rfl
  · exact .inl (List.mem_append_left _ hmem)
  · unfold Passes at hsecond
    rw [hsecond]
    cases second with
    | nil => exact .inr rfl
    | cons next second => exact .inl (List.mem_append_right _ List.mem_cons_self)

end Cursor

/-- The token is what the cause takes it for. Some causes only tell what is missing behind it. -/
def SyntaxError.Cause.IsOf (token : Token) : SyntaxError.Cause → Prop
  | .badNumber text => token.kind = .number ∧ token.text = text ∧ Number.read? text = none
  | .reserved kind | .unexpected kind | .expected _ kind | .expectedName _ kind =>
    token.kind = kind
  | .unrecognized _ | .uninitialized _ | .expectedColon _ => True

namespace Parser

variable {α β : Type} {c c₁ : Cursor}

/-- How reading ends from `c` on: further on, and with an error only at tokens that were seen. -/
inductive Placed (c : Cursor) : EStateM.Result SyntaxError Cursor α → Prop
  | ok {a : α} {c' : Cursor} (h : c.Leads c') : Placed c (.ok a c')
  | error {error : SyntaxError} {c' : Cursor} {first second : Token} (hfirst : c.Sees c' first)
      (hsecond : c.Sees c' second) (hspan : error.span = first.span.cover second.span)
      (hcause : error.cause.IsOf first) : Placed c (.error error c')

def Places (p : Parser α) : Prop :=
  ∀ c : Cursor, Placed c (p c)

theorem Placed.after {r : EStateM.Result SyntaxError Cursor α} (h : c.Leads c₁)
    (hr : Placed c₁ r) : Placed c r := by
  cases hr with
  | ok h' => exact .ok (h.trans h')
  | error hfirst hsecond hspan hcause =>
    exact .error (h.sees hfirst) (h.sees hsecond) hspan hcause

theorem placed_fail {cause : SyntaxError.Cause} {token : Token} (h : c.Sees c₁ token)
    (hcause : cause.IsOf token) :
    Placed c (fail cause token.span c₁ : EStateM.Result SyntaxError Cursor α) :=
  .error h h (Span.cover_self _).symm hcause

namespace Places

protected theorem pure (a : α) : Places (pure a) :=
  fun c => .ok (.refl c)

theorem bind {p : Parser α} {f : α → Parser β} (hp : Places p) (hf : ∀ a, Places (f a)) :
    Places (p >>= f) := by
  intro c
  have hfirst := hp c
  simp only [Bind.bind, EStateM.bind]
  generalize p c = r at hfirst
  cases hfirst with
  | @ok a c' h => exact (hf a c').after h
  | error hfirst hsecond hspan hcause => exact .error hfirst hsecond hspan hcause

theorem map {p : Parser α} (hp : Places p) (f : α → β) : Places (f <$> p) := by
  rw [map_eq_pure_bind]
  exact hp.bind fun a => .pure _

theorem ite {p q : Parser α} (hp : Places p) (hq : Places q) (b : Bool) :
    Places (if b = true then p else q) := by
  cases b with
  | true => exact hp
  | false => exact hq

end Places

theorem places_peek : Places peek :=
  fun c => .ok (.refl c)

theorem places_advance : Places advance :=
  fun c => .ok c.leads_next

/-- Failing at the next token. -/
theorem places_failHere {cause : Token → SyntaxError.Cause}
    (hcause : ∀ token, (cause token).IsOf token) :
    Places (peek >>= fun token => (fail (cause token) token.span : Parser α)) :=
  fun c => placed_fail c.sees_current (hcause _)

theorem places_check (kind : Kind) : Places (check kind) :=
  fun c => .ok (.refl c)

theorem places_accept (kind : Kind) : Places (accept kind) :=
  (places_check kind).bind fun b => .ite (places_advance.bind fun _ => .pure _) (.pure _) b

theorem places_expect (kind : Kind) : Places (expect kind) :=
  (places_check kind).bind fun b => .ite places_advance (places_failHere fun _ => by rfl) b

theorem places_identifier (role : NameRole) : Places (identifier role) :=
  (places_check .identifier).bind fun b => .ite places_advance (places_failHere fun _ => by rfl) b

theorem places_atCloser (closer : Kind) : Places (atCloser closer) :=
  (places_check closer).bind fun _ => (places_check .endOfFile).bind fun _ => .pure _

/-- A list ends with its closing token. -/
theorem places_close (closer : Kind) (a : α) :
    Places (do let _ ← expect closer; return a : Parser α) :=
  (places_expect closer).bind fun _ => .pure a

section Expressions

variable {nested : Parser Expr}

theorem places_chain {operator? : Token → Option Operator} {operand : Parser Expr}
    (hoperand : Places operand) (n : Nat) (left : Expr) :
    Places (chain operator? operand n left) := by
  induction n generalizing left with
  | zero => exact .pure left
  | succ n ih =>
    refine places_peek.bind fun token => ?_
    cases operator? token with
    | none => exact .pure left
    | some operator => exact places_advance.bind fun _ => hoperand.bind fun right => ih _

variable (hnested : Places nested)

include hnested

theorem places_items (closer : Kind) (n : Nat) : Places (items nested closer n) := by
  induction n with
  | zero => exact places_close closer []
  | succ n ih =>
    refine (places_atCloser closer).bind fun b => .ite (places_close closer []) ?_ b
    refine hnested.bind fun item => (places_accept .comma).bind fun b => .ite ?_ ?_ b
    · exact ih.bind fun rest => .pure _
    · exact places_close closer [item]

theorem places_properties (n : Nat) : Places (properties nested n) := by
  induction n with
  | zero => exact places_close .closeBrace []
  | succ n ih =>
    refine (places_atCloser _).bind fun b => .ite (places_close _ []) ?_ b
    refine (places_identifier _).bind fun key => ?_
    have hrest : ∀ property, Places (do return property :: (← properties nested n)) :=
      fun property => ih.bind fun rest => .pure _
    refine (places_accept .comma).bind fun b => .ite (hrest _) ?_ b
    refine (places_check .closeBrace).bind fun b => .ite (hrest _) ?_ b
    refine (places_accept .colon).bind fun b => .ite ?_ (places_failHere fun _ => by trivial) b
    refine hnested.bind fun value => (places_check .closeBrace).bind fun b => ?_
    cases b with
    | true => exact hrest _
    | false => exact (places_expect .comma).bind fun _ => hrest _

/-- A literal that cannot be read and a token that starts nothing are passed before the failure. -/
theorem places_primary (n : Nat) : Places (primary nested n) := by
  intro c
  have hseen : c.Sees c.next c.current := c.sees_current.trans c.leads_next
  have hnext : ∀ {p : Parser Expr}, Places p → Placed c (p c.next) :=
    fun hp => (hp c.next).after c.leads_next
  rw [primary, advance_bind]
  cases hkind : c.current.kind with
  | identifier => exact hnext (.pure _)
  | number =>
    cases hread : Number.read? c.current.text with
    | some value => exact hnext (.pure _)
    | none => exact placed_fail hseen ⟨hkind, rfl, hread⟩
  | string => exact hnext (.pure _)
  | openParen => exact hnext (hnested.bind fun inner => places_close .closeParen inner)
  | openBracket => exact hnext ((places_items hnested _ n).bind fun _ => .pure _)
  | _ => exact placed_fail hseen hkind

theorem places_links (n : Nat) (e : Expr) : Places (links nested n e) := by
  induction n generalizing e with
  | zero => exact .pure e
  | succ n ih =>
    refine (places_accept .dot).bind fun b => .ite ?_ ?_ b
    · exact (places_identifier _).bind fun property => ih _
    refine (places_accept .openBracket).bind fun b => .ite ?_ ?_ b
    · exact hnested.bind fun property => (places_expect _).bind fun _ => ih _
    refine (places_accept .openParen).bind fun b => .ite ?_ (.pure e) b
    exact (places_items hnested _ n).bind fun arguments => ih _

theorem places_comparison (n : Nat) : Places (comparison nested n) := by
  have hlinked : Places (linked nested n) :=
    (places_primary hnested n).bind (places_links hnested n)
  have hmultiplicative : Places (multiplicative nested n) := hlinked.bind (places_chain hlinked n)
  have hadditive : Places (additive nested n) :=
    hmultiplicative.bind (places_chain hmultiplicative n)
  exact hadditive.bind (places_chain hadditive n)

theorem places_object (n : Nat) : Places (object nested n) := by
  refine (places_accept .openBrace).bind fun b => .ite ?_ (places_comparison hnested n) b
  exact (places_properties hnested n).bind fun _ => .pure _

omit hnested

theorem places_expression (n : Nat) : Places (expression n) := by
  induction n with
  | zero => exact places_failHere fun _ => rfl
  | succ n ih =>
    refine (places_object ih n).bind fun left => (places_accept .equals).bind fun b => ?_
    exact .ite (ih.bind fun value => .pure _) (.pure left) b

end Expressions

theorem places_parameters (n : Nat) : Places (parameters n) := by
  induction n with
  | zero => exact (places_identifier _).bind fun _ => .pure _
  | succ n ih =>
    refine (places_identifier _).bind fun _ => (places_accept .comma).bind fun b => ?_
    exact .ite (ih.bind fun _ => .pure _) (.pure _) b

theorem places_block {statement : Parser Stmt} (hstatement : Places statement) (n : Nat) :
    Places (block statement n) := by
  induction n with
  | zero => exact places_close .closeBrace []
  | succ n ih =>
    refine (places_atCloser _).bind fun b => .ite (places_close _ []) ?_ b
    refine (places_accept .semicolon).bind fun b => .ite ih ?_ b
    exact hstatement.bind fun first => ih.bind fun rest => .pure _

/-- A constant without a value is reported from its keyword to its name. -/
theorem places_declaration (n : Nat) : Places (declaration n) := by
  intro c
  rw [declaration, advance_bind]
  have hkeyword : c.Sees c.next c.current := c.sees_current.trans c.leads_next
  by_cases hname : c.next.current.kind = .identifier
  · rw [identifier_bind hname]
    have hleads : c.Leads c.next.next := c.leads_next.trans c.next.leads_next
    by_cases hequals : c.next.next.current.kind = .equals
    · rw [accept_pos hequals]
      have hvalue : ∀ b name, Places (do return Stmt.declare b name (some (← expression n))) :=
        fun b name => (places_expression n).bind fun value => .pure _
      exact (hvalue _ _ _).after (hleads.trans c.next.next.leads_next)
    · rw [accept_neg hequals]
      cases decide (c.current.kind = .constWord) with
      | false => exact .ok hleads
      | true =>
        refine .error (hkeyword.trans c.next.leads_next) ?_ rfl trivial
        exact c.leads_next.sees (c.next.sees_current.trans c.next.leads_next)
  · simp only [Bind.bind, EStateM.bind, identifier_of_ne hname]
    exact placed_fail (c.leads_next.sees c.next.sees_current) rfl

theorem places_function {statement : Parser Stmt} (hstatement : Places statement) (n : Nat) :
    Places (function statement n) := by
  refine (places_expect _).bind fun _ => (places_identifier _).bind fun name => ?_
  refine (places_expect _).bind fun _ => (places_check _).bind fun b => ?_
  have hbody : ∀ names : List String, Places (do
      let _ ← expect .closeParen
      let _ ← expect .openBrace
      return Stmt.function name.text names (← block statement n)) := fun names =>
    (places_expect _).bind fun _ => (places_expect _).bind fun _ =>
      (places_block hstatement n).bind fun _ => .pure _
  cases b with
  | true => exact hbody []
  | false => exact (places_parameters n).bind hbody

theorem places_statement (n : Nat) : Places (statement n) := by
  induction n with
  | zero => exact (places_expression 0).bind fun _ => .pure _
  | succ n ih =>
    rw [statement_succ]
    refine Places.bind ?_ fun stmt => (places_accept .semicolon).bind fun _ => .pure stmt
    intro c
    rw [form, peek_bind]
    cases hkind : c.current.kind with
    | letWord | constWord => exact places_declaration n c
    | funcWord => exact places_function ih n c
    | ifWord | elseWord | forWord => exact placed_fail c.sees_current hkind
    | _ => exact (places_expression (n + 1)).map Stmt.expr c

/-- Reading goes on behind a token that divides, or at it. -/
theorem resume_cases (tokens : List Token) : resume tokens = [] ∨
    ∃ skipped divider rest, tokens = skipped ++ divider :: rest ∧ divider.kind.divides = true ∧
      resume tokens <:+ divider :: rest := by
  induction tokens with
  | nil => exact .inl rfl
  | cons token rest ih =>
    rw [resume]
    split
    case h_1 hkind =>
      refine .inr ⟨[], token, rest, rfl, ?_, List.suffix_cons token rest⟩
      rw [hkind, Kind.divides]
    case h_5 =>
      refine ih.imp_right fun h => ?_
      obtain ⟨skipped, divider, rest, rfl, h⟩ := h
      exact ⟨token :: skipped, divider, rest, rfl, h⟩
    all_goals
      rename_i hkind
      refine .inr ⟨[], token, rest, rfl, ?_, List.suffix_refl _⟩
      rw [hkind, Kind.divides]

end Parser

namespace Cursor

variable {c c' : Cursor} {token : Token}

def left (c : Cursor) : List Token :=
  c.ahead ++ [c.stop]

theorem Passes.left_eq {passed : List Token} (h : c.Passes passed c') :
    c.left = passed ++ c'.left := by
  unfold Passes prepend at h
  rw [h, left, left, List.append_assoc]

theorem current_mem_left (c : Cursor) : c.current ∈ c.left := by
  obtain ⟨ahead, stop⟩ := c
  cases ahead <;> simp [left, current]

theorem Sees.mem_left (h : c.Sees c' token) : token ∈ c.left := by
  obtain ⟨passed, hpassed, hmem⟩ := h
  rw [hpassed.left_eq, List.mem_append]
  refine hmem.imp_right fun htoken => ?_
  rw [htoken]
  exact c'.current_mem_left

def resumed (c : Cursor) : Cursor :=
  { c with ahead := Parser.resume c.ahead.tail }

/-- What was seen before a failure stands before all that is read after it. -/
theorem Sees.start_lt (hsees : c.Sees c' token) (horder : c.left.Pairwise Token.InOrder)
    (hresume : Parser.resume c'.ahead.tail ≠ []) :
    ∀ later ∈ c'.resumed.left, token.span.start < later.span.start := by
  intro later hlater
  obtain ⟨passed, hpassed, hmem⟩ := hsees
  obtain ⟨ahead, stop⟩ := c'
  cases ahead with
  | nil => exact absurd rfl hresume
  | cons current ahead =>
    obtain ⟨skipped, divider, rest, rfl, hdivides, hrest⟩ :=
      (Parser.resume_cases ahead).resolve_left hresume
    -- The tokens up to the one that divides, and those from there on.
    have hsplit : c.left = (passed ++ current :: skipped) ++ (divider :: (rest ++ [stop])) := by
      rw [hpassed.left_eq, left]
      simp
    have hfirst : token ∈ passed ++ current :: skipped := by
      rcases hmem with hmem | rfl
      · exact List.mem_append_left _ hmem
      · exact List.mem_append_right _ List.mem_cons_self
    have hsecond : later ∈ divider :: (rest ++ [stop]) := by
      rcases List.mem_append.mp hlater with hlater | hlater
      · exact List.mem_append_left [stop] (hrest.mem hlater)
      · exact List.mem_cons_of_mem _ (List.mem_append_right _ hlater)
    rw [hsplit, List.pairwise_append, List.pairwise_cons] at horder
    obtain ⟨-, ⟨hbehind, -⟩, hbefore⟩ := horder
    have hlt := hbefore token hfirst divider List.mem_cons_self (.inr hdivides)
    rcases List.mem_cons.mp hsecond with rfl | hsecond
    · exact hlt
    · exact hlt.trans (hbehind later hsecond (.inl hdivides))

theorem Leads.sublist_left (h : c.Leads c') : c'.left.Sublist c.left := by
  obtain ⟨passed, h⟩ := h
  rw [h.left_eq]
  exact List.sublist_append_right passed c'.left

theorem sublist_left_resumed (c : Cursor) : c.resumed.left.Sublist c.left := by
  have hresume : (Parser.resume c.ahead.tail).Sublist c.ahead.tail := by
    rcases Parser.resume_cases c.ahead.tail with hnil | ⟨skipped, divider, rest, heq, -, hrest⟩
    · rw [hnil]
      exact List.nil_sublist _
    · have hskipped := List.sublist_append_right skipped (divider :: rest)
      rw [← heq] at hskipped
      exact hrest.sublist.trans hskipped
  exact (hresume.trans (List.tail_sublist c.ahead)).append_right [c.stop]

end Cursor

/-- The error is reported from one of the tokens, which is what the error takes it for, to
another. -/
def SyntaxError.Among (error : SyntaxError) (tokens : List Token) : Prop :=
  ∃ first ∈ tokens, ∃ second ∈ tokens,
    error.span = first.span.cover second.span ∧ error.cause.IsOf first

namespace SyntaxError

variable {error : SyntaxError} {tokens : List Token}

theorem Among.mono {more : List Token} (h : error.Among tokens) (hsub : tokens.Sublist more) :
    error.Among more := by
  obtain ⟨first, hfirst, second, hsecond, hspan⟩ := h
  exact ⟨first, hsub.mem hfirst, second, hsub.mem hsecond, hspan⟩

theorem Among.fits {source : String} (h : error.Among tokens)
    (htokens : ∀ token ∈ tokens, token.span.Fits source) : error.span.Fits source := by
  obtain ⟨first, hfirst, second, hsecond, hspan, -⟩ := h
  rw [hspan]
  exact (htokens first hfirst).cover (htokens second hsecond)

theorem Among.start_lt {start : Nat} (h : error.Among tokens)
    (htokens : ∀ token ∈ tokens, start < token.span.start) : start < error.span.start := by
  obtain ⟨first, hfirst, second, hsecond, hspan, -⟩ := h
  rw [hspan]
  exact Nat.lt_min.mpr ⟨htokens first hfirst, htokens second hsecond⟩

end SyntaxError

namespace Parser

variable {n : Nat} {c c' : Cursor}

/-- Errors that come after a failure are reported behind it. -/
theorem start_lt_of_mem_resumed {error : SyntaxError} {first second : Token}
    (hstop : c'.stop.kind = .endOfFile) (horder : c.left.Pairwise Token.InOrder)
    (hfirst : c.Sees c' first) (hspan : error.span = first.span.cover second.span)
    (hamong : ∀ later ∈ (statements n c'.resumed).2, later.Among c'.resumed.left) :
    ∀ later ∈ (statements n c'.resumed).2, error.span.start < later.span.start := by
  intro later hlater
  have hresume : resume c'.ahead.tail ≠ [] := by
    intro hnil
    have hend : c'.resumed.current.kind = .endOfFile := by
      rw [Cursor.resumed, hnil]
      exact hstop
    rw [statements_endOfFile hend] at hlater
    cases hlater
  have hle : error.span.start ≤ first.span.start := by
    rw [hspan]
    exact Nat.min_le_left _ _
  exact hle.trans_lt ((hamong later hlater).start_lt (hfirst.start_lt horder hresume))

/-- The errors of a program are reported at its tokens, one behind the other. -/
theorem statements_placed (hstop : c.stop.kind = .endOfFile)
    (horder : c.left.Pairwise Token.InOrder) :
    (∀ error ∈ (statements n c).2, error.Among c.left) ∧
      (statements n c).2.Pairwise fun first second => first.span.start < second.span.start := by
  induction n generalizing c with
  | zero => simp [statements]
  | succ n ih =>
    -- What holds of the errors further on holds of them from here.
    have hfurther : ∀ c' : Cursor, c'.stop = c.stop → c'.left.Sublist c.left →
        (∀ error ∈ (statements n c').2, error.Among c.left) ∧
          (statements n c').2.Pairwise fun a b => a.span.start < b.span.start := by
      intro c' hstop' hsublist
      obtain ⟨hamong, hpairwise⟩ := ih (hstop' ▸ hstop) (horder.sublist hsublist)
      exact ⟨fun error hmem => (hamong error hmem).mono hsublist, hpairwise⟩
    by_cases hend : c.current.kind = .endOfFile
    · simp [statements_endOfFile hend]
    by_cases hsemicolon : c.current.kind = .semicolon
    · rw [statements_semicolon hsemicolon]
      exact hfurther c.next rfl c.leads_next.sublist_left
    have hplaced := places_statement (n + 1) c
    cases h : statement (n + 1) c with
    | ok stmt c' =>
      rw [statements_ok hend hsemicolon h]
      rw [h] at hplaced
      cases hplaced with
      | ok hleads => exact hfurther c' hleads.stop_eq hleads.sublist_left
    | error error c' =>
      rw [statements_error ⟨hsemicolon, hend⟩ h]
      rw [h] at hplaced
      cases hplaced with
      | @error _ _ first second hfirst hsecond hspan hcause =>
        have hleads := hfirst.leads
        have hsublist := c'.sublist_left_resumed.trans hleads.sublist_left
        have hstop' : c'.stop.kind = .endOfFile := hleads.stop_eq ▸ hstop
        have hlater := start_lt_of_mem_resumed hstop' horder hfirst hspan
          (ih (c := c'.resumed) hstop' (horder.sublist hsublist)).1
        obtain ⟨hamong, hpairwise⟩ := hfurther c'.resumed hleads.stop_eq hsublist
        refine ⟨List.forall_mem_cons.mpr ⟨?_, hamong⟩, List.pairwise_cons.mpr ⟨hlater, hpairwise⟩⟩
        exact ⟨first, hfirst.mem_left, second, hsecond.mem_left, hspan, hcause⟩

end Parser

namespace Program

theorem ofTokens_eq_error_iff {tokens : List Token} {errors : List SyntaxError} :
    ofTokens tokens = .error errors ↔ errors ≠ [] ∧
      (Parser.statements (Cursor.ofTokens tokens).ahead.length
        (Cursor.ofTokens tokens)).2 = errors := by
  rw [ofTokens]
  generalize Parser.statements _ _ = result
  obtain ⟨stmts, _ | ⟨error, rest⟩⟩ := result <;> grind

theorem ofTokens_errors_among {source : String} {errors : List SyntaxError}
    (h : ofTokens (Source.marked source) = .error errors) : errors ≠ [] ∧
      (∀ error ∈ errors, error.Among (Source.marked source)) ∧
      errors.Pairwise fun first second => first.span.start < second.span.start := by
  obtain ⟨hne, rfl⟩ := ofTokens_eq_error_iff.mp h
  refine ⟨hne, ?_⟩
  have hcursor : Cursor.ofTokens (Source.marked source) =
      ⟨Source.tokens source, .endOfFile (Source.byteSize source.toList)⟩ :=
    Cursor.ofTokens_endOfFile (Source.kind_ne_of_mem_tokens source)
  rw [hcursor]
  exact Parser.statements_placed
    (c := ⟨Source.tokens source, .endOfFile (Source.byteSize source.toList)⟩) rfl
    (Source.pairwise_marked source)

theorem ofTokens_errors_placed {source : String} {errors : List SyntaxError}
    (h : ofTokens (Source.marked source) = .error errors) : errors ≠ [] ∧
      (∀ error ∈ errors, error.span.Fits source) ∧
      errors.Pairwise fun first second => first.span.start < second.span.start := by
  obtain ⟨hne, hamong, hpairwise⟩ := ofTokens_errors_among h
  exact ⟨hne, fun error hmem => (hamong error hmem).fits Source.fits_of_mem_marked, hpairwise⟩

/-- Syntax errors are reported inside the source, between characters, and each one further on than
those before it. -/
theorem parse_errors_placed {source : String} {errors : List SyntaxError}
    (h : parse source = .error errors) : errors ≠ [] ∧
      (∀ error ∈ errors, error.span.Fits source) ∧
      errors.Pairwise fun first second => first.span.start < second.span.start := by
  rw [parse] at h
  cases htokens : Source.tokenize source with
  | ok tokens =>
    obtain ⟨-, rfl⟩ := Source.tokenize_eq_ok_iff.mp htokens
    rw [htokens] at h
    exact ofTokens_errors_placed h
  | error strays =>
    rw [htokens] at h
    obtain rfl := Except.error.inj h
    obtain ⟨hne, hfits, hpairwise⟩ := Source.tokenize_errors_placed htokens
    refine ⟨by simpa using hne, ?_, List.pairwise_map.mpr hpairwise⟩
    intro error hmem
    obtain ⟨stray, hstray, rfl⟩ := List.mem_map.mp hmem
    exact hfits stray hstray

/-- The targets `é` and `b` are repeated behind the places of their updates. The first error is seen
behind the update of `é`, the second one goes from a keyword to a name, the last one is at the
end. -/
theorem parse_errors_placed_updates :
    let source := "é += ); const b c; b *="
    let errors : List SyntaxError := [⟨.unexpected .closeParen, ⟨6, 7⟩⟩,
      ⟨.uninitialized "b", ⟨9, 16⟩⟩, ⟨.unexpected .endOfFile, ⟨24, 24⟩⟩]
    parse source = .error errors ∧ errors ≠ [] ∧
      (∀ error ∈ errors, error.span.Fits source) ∧
      errors.Pairwise fun first second => first.span.start < second.span.start := by
  intro source errors
  have htokens : Source.tokenize source = .ok [.plain .identifier "é" ⟨0, 2⟩,
      .plain .equals "=" ⟨3, 5⟩, .plain .identifier "é" ⟨0, 2⟩, .plain .operator "+" ⟨3, 5⟩,
      .plain .closeParen ")" ⟨6, 7⟩, .plain .semicolon ";" ⟨7, 8⟩,
      .plain .constWord "const" ⟨9, 14⟩, .plain .identifier "b" ⟨15, 16⟩,
      .plain .identifier "c" ⟨17, 18⟩,
      .plain .semicolon ";" ⟨18, 19⟩, .plain .identifier "b" ⟨20, 21⟩, .plain .equals "=" ⟨22, 24⟩,
      .plain .identifier "b" ⟨20, 21⟩, .plain .operator "*" ⟨22, 24⟩, .endOfFile 24] := by
    decide +kernel
  have hparse : parse source = .error errors := by
    rw [parse, htokens]
    rfl
  exact ⟨hparse, parse_errors_placed hparse⟩

end Program
end Script
