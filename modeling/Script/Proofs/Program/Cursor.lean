import Script.Program.Parser
import Script.Proofs.Token.Lexeme

namespace Script

namespace Parser

variable {α β : Type} {c c' : Cursor}

theorem bind_of_ok {p : Parser α} {f : α → Parser β} {a : α} (h : p c = .ok a c') :
    (p >>= f) c = f a c' := by
  simp only [bind, EStateM.bind, h]

theorem bind_of_error {p : Parser α} {f : α → Parser β} {e : SyntaxError} (h : p c = .error e c') :
    (p >>= f) c = .error e c' := by
  simp only [bind, EStateM.bind, h]

theorem bind_eq_ok {p : Parser α} {f : α → Parser β} {b : β} :
    (p >>= f) c = .ok b c' ↔ ∃ a c₁, p c = .ok a c₁ ∧ f a c₁ = .ok b c' := by
  simp only [bind, EStateM.bind]
  constructor
  · intro h
    split at h
    case h_1 a c₁ hp => exact ⟨a, c₁, hp, h⟩
    case h_2 => simp at h
  · intro h
    obtain ⟨a, c₁, hp, hf⟩ := h
    rw [hp]
    exact hf

theorem map_eq_ok {p : Parser α} {f : α → β} {b : β} :
    (f <$> p) c = .ok b c' ↔ ∃ a, p c = .ok a c' ∧ f a = b := by
  rw [map_eq_pure_bind, bind_eq_ok]
  constructor
  · intro h
    obtain ⟨a, c₁, hp, hf⟩ := h
    obtain ⟨rfl, rfl⟩ := EStateM.Result.ok.inj hf
    exact ⟨a, hp, rfl⟩
  · intro h
    obtain ⟨a, hp, rfl⟩ := h
    exact ⟨a, c', hp, rfl⟩

@[simp] theorem pure_apply (a : α) : (pure a : Parser α) c = .ok a c := rfl

@[simp] theorem fail_apply (cause : SyntaxError.Cause) (span : Span) :
    (fail cause span : Parser α) c = .error ⟨cause, span⟩ c := rfl

theorem peek_bind (f : Token → Parser β) : (peek >>= f) c = f c.current c := rfl

theorem advance_bind (f : Token → Parser β) : (advance >>= f) c = f c.current c.next := rfl

theorem check_bind (kind : Kind) (f : Bool → Parser β) :
    (check kind >>= f) c = f (c.current.kind = kind) c := rfl

theorem atCloser_bind (closer : Kind) (f : Bool → Parser β) : (atCloser closer >>= f) c =
    f (c.current.kind = closer ∨ c.current.kind = .endOfFile) c := by
  have h : atCloser closer c =
      .ok (decide (c.current.kind = closer ∨ c.current.kind = .endOfFile)) c := by
    rw [atCloser, check_bind, Bool.decide_or]
    cases decide (c.current.kind = closer) <;> rfl
  rw [bind_of_ok h]

theorem accept_bind (kind : Kind) (f : Bool → Parser β) : (accept kind >>= f) c =
    if c.current.kind = kind then f true c.next else f false c := by
  by_cases h : c.current.kind = kind
  · have haccept : accept kind c = .ok true c.next := by
      rw [accept, check_bind, decide_eq_true h]
      rfl
    rw [bind_of_ok haccept, if_pos h]
  · have haccept : accept kind c = .ok false c := by
      rw [accept, check_bind, decide_eq_false h]
      rfl
    rw [bind_of_ok haccept, if_neg h]

theorem expect_bind {kind : Kind} (h : c.current.kind = kind) (f : Token → Parser β) :
    (expect kind >>= f) c = f c.current c.next := by
  have hexpect : expect kind c = .ok c.current c.next := by
    rw [expect, check_bind, decide_eq_true h]
    rfl
  exact bind_of_ok hexpect

theorem expect_bind_eq_ok {kind : Kind} {f : Token → Parser β} {b : β} :
    (expect kind >>= f) c = .ok b c' ↔
      c.current.kind = kind ∧ f c.current c.next = .ok b c' := by
  by_cases h : c.current.kind = kind
  · simp [expect_bind h, h]
  · have hexpect : ∀ token c₁, expect kind c ≠ .ok token c₁ := by
      rw [expect, check_bind, decide_eq_false h]
      intro token c₁ hok
      cases hok
    simp [bind_eq_ok, hexpect, h]

theorem identifier_bind {role : NameRole} (h : c.current.kind = .identifier)
    (f : Token → Parser β) : (identifier role >>= f) c = f c.current c.next := by
  have hname : identifier role c = .ok c.current c.next := by
    rw [identifier, check_bind, decide_eq_true h]
    rfl
  exact bind_of_ok hname

theorem identifier_bind_eq_ok {role : NameRole} {f : Token → Parser β} {b : β} :
    (identifier role >>= f) c = .ok b c' ↔
      c.current.kind = .identifier ∧ f c.current c.next = .ok b c' := by
  by_cases h : c.current.kind = .identifier
  · simp [identifier_bind h, h]
  · have hname : ∀ token c₁, identifier role c ≠ .ok token c₁ := by
      rw [identifier, check_bind, decide_eq_false h]
      intro token c₁ hok
      cases hok
    simp [bind_eq_ok, hname, h]

theorem items_nil {nested : Parser Expr} {n : Nat} {closer : Kind}
    (hcloser : c.current.kind = closer) :
    items nested closer n c = .ok [] c.next := by
  cases n with
  | zero => exact expect_bind hcloser _
  | succ n =>
    rw [items, atCloser_bind, decide_eq_true (.inl hcloser), if_pos rfl]
    exact expect_bind hcloser _

theorem properties_nil {nested : Parser Expr} {n : Nat} (hcloser : c.current.kind = .closeBrace) :
    properties nested n c = .ok [] c.next := by
  cases n with
  | zero => exact expect_bind hcloser _
  | succ n =>
    rw [properties, atCloser_bind, decide_eq_true (.inl hcloser), if_pos rfl]
    exact expect_bind hcloser _

def form (n : Nat) : Parser Stmt := do
  let token ← peek
  match token.kind with
  | .letWord | .constWord => declaration n
  | .funcWord => function (statement n) n
  | .ifWord | .elseWord | .forWord => fail (.reserved token.kind) token.span
  | _ => .expr <$> expression (n + 1)

theorem statement_succ (n : Nat) : statement (n + 1) = (do
    let stmt ← form n
    let _ ← accept .semicolon
    return stmt) := by
  funext c
  rw [statement, peek_bind]
  simp only [form, bind_assoc, peek_bind]
  cases c.current.kind <;> rfl

end Parser

namespace Cursor

/-- Reading the lexemes, all of them, leads from one cursor to the other. -/
def Steps : Cursor → List Lexeme → Cursor → Prop
  | c, [], c' => c = c'
  | c, l :: ls, c' => c.ahead ≠ [] ∧ c.current.lexeme = l ∧ Steps c.next ls c'

variable {c c' c'' : Cursor} {l : Lexeme} {ls ms : List Lexeme}

@[simp] theorem steps_nil : c.Steps [] c' ↔ c = c' := Iff.rfl

@[simp] theorem steps_cons : c.Steps (l :: ls) c' ↔
    c.ahead ≠ [] ∧ c.current.lexeme = l ∧ c.next.Steps ls c' := Iff.rfl

theorem steps_append :
    c.Steps (ls ++ ms) c'' ↔ ∃ c', c.Steps ls c' ∧ c'.Steps ms c'' := by
  induction ls generalizing c with
  | nil => simp
  | cons l ls ih => simp [ih, and_assoc]

theorem Steps.append (h : c.Steps ls c') (h' : c'.Steps ms c'') : c.Steps (ls ++ ms) c'' :=
  steps_append.mpr ⟨c', h, h'⟩

/-- What stands between an opening and a closing lexeme is read from behind the one up to the
other. -/
theorem Steps.enclosed {opener closer : Lexeme} {left right : Kind}
    (h : c.Steps (opener :: ls ++ closer :: ms) c') (hopener : opener.kind = left)
    (hcloser : closer.kind = right) :
    c.current.kind = left ∧
      ∃ c₁, c.next.Steps ls c₁ ∧ c₁.current.kind = right ∧ c₁.next.Steps ms c' := by
  obtain ⟨-, hl, hrest⟩ := h
  obtain ⟨c₁, hls, -, hl₁, hms⟩ := steps_append.mp hrest
  refine ⟨?_, c₁, hls, ?_, hms⟩
  · rw [← hopener, ← hl]
    rfl
  · rw [← hcloser, ← hl₁]
    rfl

theorem Steps.map_lexeme (h : c.Steps ls c') :
    c.ahead.map Token.lexeme = ls ++ c'.ahead.map Token.lexeme := by
  induction ls generalizing c with
  | nil => rw [steps_nil.mp h, List.nil_append]
  | cons l ls ih =>
    obtain ⟨hne, rfl, h⟩ := h
    obtain ⟨token, rest, hahead⟩ := List.exists_cons_of_ne_nil hne
    have hrest := ih h
    rw [next, hahead] at hrest
    rw [hahead, current, hahead, List.map_cons, List.cons_append, ← hrest]
    rfl

theorem steps_ahead (c : Cursor) : c.Steps (c.ahead.map Token.lexeme) { c with ahead := [] } := by
  obtain ⟨ahead, stop⟩ := c
  induction ahead with
  | nil => rfl
  | cons token ahead ih => exact ⟨by simp, rfl, ih⟩

theorem stop_kind_ofTokens (tokens : List Token) :
    (ofTokens tokens).stop.kind = .endOfFile := by
  rw [ofTokens]
  cases hfind : tokens.find? fun token => token.kind = .endOfFile with
  | none => rfl
  | some token => simpa using List.find?_some hfind

variable {tokens rest : List Token} {stop : Token}

theorem kind_ne_of_mem_ahead {token : Token} (h : token ∈ (ofTokens tokens).ahead) :
    token.kind ≠ .endOfFile := by
  simpa using List.mem_takeWhile_imp h

/-- What stands behind an end mark is not read. -/
theorem ofTokens_of_stop (h : ∀ token ∈ tokens, token.kind ≠ .endOfFile)
    (hstop : stop.kind = .endOfFile) : ofTokens (tokens ++ stop :: rest) = ⟨tokens, stop⟩ := by
  have htokens : ∀ token ∈ tokens, decide (token.kind ≠ .endOfFile) = true := by
    simpa using h
  have hnone : tokens.find? (fun token => decide (token.kind = .endOfFile)) = none := by
    simpa using h
  rw [ofTokens, List.takeWhile_append_of_pos htokens,
    List.takeWhile_cons_of_neg (by simpa using hstop), List.append_nil, List.find?_append, hnone,
    Option.none_or, List.find?_cons_of_pos (by simpa using hstop), Option.getD_some]

theorem ofTokens_of_forall (h : ∀ token ∈ tokens, token.kind ≠ .endOfFile) :
    ofTokens tokens =
      ⟨tokens, Token.endOfFile ((tokens.getLast?.map fun token => token.span.stop).getD 0)⟩ := by
  have hnone : tokens.find? (fun token => decide (token.kind = .endOfFile)) = none := by
    simpa using h
  rw [ofTokens, List.takeWhile_eq_self_iff.mpr (by simpa using h), hnone, Option.getD_none]

/-- A list has no end mark, or it is cut by its first one. -/
theorem forall_or_split (tokens : List Token) : (∀ token ∈ tokens, token.kind ≠ .endOfFile) ∨
    ∃ before stop rest, tokens = before ++ stop :: rest ∧
      (∀ token ∈ before, token.kind ≠ .endOfFile) ∧ stop.kind = .endOfFile := by
  cases hfind : tokens.find? fun token => token.kind = .endOfFile with
  | none => exact .inl (by simpa using hfind)
  | some stop =>
    obtain ⟨hstop, before, rest, rfl, hbefore⟩ := List.find?_eq_some_iff_append.mp hfind
    exact .inr ⟨before, stop, rest, rfl, by simpa using hbefore, by simpa using hstop⟩

end Cursor
end Script
