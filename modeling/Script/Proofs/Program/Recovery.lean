import Script.Proofs.Program.RoundTrip
import Script.Proofs.Program.Twins

namespace Script

namespace Parser

def failures : Nat → Cursor → List (SyntaxError × Cursor)
  | 0, _ => []
  | n + 1, c =>
    match c.current.kind with
    | .endOfFile => []
    | .semicolon => failures n c.next
    | _ =>
      match statement (n + 1) c with
      | .ok _ c => failures n c
      | .error error c => (error, c) :: failures n { c with ahead := resume c.ahead.tail }

/-- Does reading go on too late after a failure? Either the semicolon of the statement was taken for
an expression and a token behind it is lost, or the failure was seen at the semicolon and tokens
behind it are skipped. -/
def overruns (failure : SyntaxError × Cursor) : Bool :=
  failure.1.cause = .unexpected .semicolon || failure.2.current.kind = .semicolon &&
    resume failure.2.ahead.tail ≠ failure.2.ahead.tail

section Failures

variable {n : Nat} {c c' : Cursor}

theorem failures_endOfFile (h : c.current.kind = .endOfFile) : failures n c = [] := by
  cases n with
  | zero => rfl
  | succ n => rw [failures, h]

theorem failures_semicolon (h : c.current.kind = .semicolon) :
    failures (n + 1) c = failures n c.next := by
  rw [failures, h]

theorem failures_ok {stmt : Stmt} (hc : c.current.kind.Inner)
    (h : statement (n + 1) c = .ok stmt c') : failures (n + 1) c = failures n c' := by
  rw [failures, h]
  split
  case h_1 hkind => exact absurd hkind hc.2
  case h_2 hkind => exact absurd hkind hc.1
  case h_3 => rfl

theorem failures_error {error : SyntaxError} (hc : c.current.kind.Inner)
    (h : statement (n + 1) c = .error error c') : failures (n + 1) c =
      (error, c') :: failures n { c' with ahead := resume c'.ahead.tail } := by
  rw [failures, h]
  split
  case h_1 hkind => exact absurd hkind hc.2
  case h_2 hkind => exact absurd hkind hc.1
  case h_3 => rfl

theorem map_fst_failures (n : Nat) (c : Cursor) :
    (failures n c).map Prod.fst = (statements n c).2 := by
  induction n generalizing c with
  | zero => rfl
  | succ n ih =>
    by_cases hend : c.current.kind = .endOfFile
    · rw [failures_endOfFile hend, statements_endOfFile hend, List.map_nil]
    by_cases hsemicolon : c.current.kind = .semicolon
    · rw [failures_semicolon hsemicolon, statements_semicolon hsemicolon, ih]
    have hc : c.current.kind.Inner := ⟨hsemicolon, hend⟩
    cases h : statement (n + 1) c with
    | ok stmt c' => rw [failures_ok hc h, statements_ok hend hsemicolon h, ih]
    | error error c' => rw [failures_error hc h, statements_error hc h, List.map_cons, ih]

end Failures

/-- Reading goes on behind the semicolon or at a word before it. -/
theorem resume_append {tokens rest : List Token} {semicolon : Token}
    (htokens : ∀ token ∈ tokens, token.kind ≠ .semicolon) (h : semicolon.kind = .semicolon) :
    resume (tokens ++ semicolon :: rest) = rest ∨
      ∃ m, resume (tokens ++ semicolon :: rest) = tokens.drop m ++ semicolon :: rest := by
  induction tokens with
  | nil =>
    rw [List.nil_append, resume, h]
    exact .inl rfl
  | cons token tokens ih =>
    rw [List.forall_mem_cons] at htokens
    rw [List.cons_append, resume]
    split
    case h_1 hkind => exact absurd hkind htokens.1
    case h_5 =>
      rcases ih htokens.2 with hrest | ⟨m, hrest⟩
      · exact .inl hrest
      · exact .inr ⟨m + 1, hrest⟩
    all_goals exact .inr ⟨0, rfl⟩

end Parser

namespace Program

def errors (tokens : List Token) : List SyntaxError :=
  match ofTokens tokens with
  | .ok _ => []
  | .error errors => errors

def failures (tokens : List Token) : List (SyntaxError × Cursor) :=
  Parser.failures (Cursor.ofTokens tokens).ahead.length (Cursor.ofTokens tokens)

theorem errors_eq (tokens : List Token) : errors tokens = (failures tokens).map Prod.fst := by
  rw [failures, Parser.map_fst_failures, errors, ofTokens]
  generalize Parser.statements _ _ = result
  obtain ⟨stmts, _ | ⟨error, rest⟩⟩ := result <;> rfl

theorem isOk_ofTokens (tokens : List Token) :
    (ofTokens tokens).isOk = (failures tokens).isEmpty := by
  have herrors := errors_eq tokens
  rw [errors, ofTokens] at herrors
  rw [ofTokens]
  revert herrors
  generalize Parser.statements _ _ = result
  intro herrors
  obtain ⟨stmts, _ | ⟨error, rest⟩⟩ := result
  · rw [List.map_eq_nil_iff.mp herrors.symm]
    rfl
  · obtain ⟨failure, others, hfailures, -⟩ := List.map_eq_cons_iff.mp herrors.symm
    rw [hfailures]
    rfl

end Program

/-- Tokens that end with their only semicolon and have no function or brace among them. -/
structure Clause where
  body : List Token
  semicolon : Token
  body_kind : ∀ token ∈ body,
    token.kind ∉ [.semicolon, .funcWord, .openBrace, .closeBrace, .endOfFile]
  semicolon_kind : semicolon.kind = .semicolon

namespace Clause

open Script.Parser

def tokens (clause : Clause) : List Token :=
  clause.body ++ [clause.semicolon]

def joined (clauses : List Clause) : List Token :=
  clauses.flatMap tokens

def fails (clause : Clause) : Bool :=
  !(Program.ofTokens clause.tokens).isOk

def drop (clause : Clause) (m : Nat) : Clause where
  body := clause.body.drop m
  semicolon := clause.semicolon
  body_kind token hmem := clause.body_kind token (List.drop_subset m _ hmem)
  semicolon_kind := clause.semicolon_kind

variable {clause : Clause} {clauses : List Clause} {stop : Token} {n : Nat}

@[simp] theorem joined_cons : joined (clause :: clauses) =
    clause.body ++ clause.semicolon :: joined clauses := by
  rw [joined, List.flatMap_cons, tokens, List.append_assoc]
  rfl

theorem length_joined_cons : (joined (clause :: clauses)).length =
    clause.body.length + ((joined clauses).length + 1) := by
  rw [joined_cons, List.length_append, List.length_cons]

theorem joined_drop (clause : Clause) (m : Nat) : joined (clause.drop m :: clauses) =
    clause.body.drop m ++ clause.semicolon :: joined clauses :=
  joined_cons

theorem kind_of_mem {token : Token} (h : token ∈ clause.body) :
    token.kind.Inner ∧ token.kind ≠ .funcWord := by
  have hkind := clause.body_kind token h
  simp only [List.mem_cons, not_or] at hkind
  exact ⟨⟨hkind.1, hkind.2.2.2.2.1⟩, hkind.2.1⟩

def edge (clause : Clause) (rest : List Token) (stop : Token) : Cursor :=
  ⟨clause.semicolon :: rest, stop⟩

section Edge

variable {rest : List Token}

theorem current_edge : (clause.edge rest stop).current.kind = .semicolon :=
  clause.semicolon_kind

theorem prepend_edge : (clause.edge (joined clauses) stop).prepend clause.body =
    ⟨joined (clause :: clauses), stop⟩ := by
  rw [joined_cons]
  rfl

theorem prepend_edge_nil :
    (clause.edge [] stop).prepend clause.body = ⟨clause.tokens, stop⟩ := rfl

theorem passed_edge : (clause.edge rest stop).passed = ⟨rest, stop⟩ :=
  Cursor.passed_of_eq current_edge

theorem passed_of_mem {x : Token} {xs : List Token} (hx : x ∈ clause.body) :
    ((clause.edge rest stop).prepend (x :: xs)).passed =
      (clause.edge rest stop).prepend (x :: xs) :=
  Cursor.passed_of_ne (kind_of_mem hx).1.1

theorem inner_current (hbody : clause.body ≠ []) :
    ((clause.edge rest stop).prepend clause.body).current.kind.Inner := by
  obtain ⟨t, v, hcons⟩ := List.exists_cons_of_ne_nil hbody
  have ht : t ∈ clause.body := hcons ▸ List.mem_cons_self
  rw [hcons]
  exact (kind_of_mem ht).1

/-- The first statement of a clause is read alike whatever is behind the semicolon. -/
theorem form_twin {i j : Nat} (hbody : clause.body ≠ []) (hi : clause.body.length ≤ i + 1)
    (hj : clause.body.length ≤ j + 1) (rest rest' : List Token) (stop stop' : Token) :
    Twin (clause.edge rest stop) (clause.edge rest' stop') clause.body clause.body 1
      (form i ((clause.edge rest stop).prepend clause.body))
      (form j ((clause.edge rest' stop').prepend clause.body)) := by
  obtain ⟨t, v, hcons⟩ := List.exists_cons_of_ne_nil hbody
  have ht : t ∈ clause.body := hcons ▸ List.mem_cons_self
  rw [hcons] at hi hj ⊢
  exact Parser.form_twin (.inl current_edge) (.inl current_edge) rfl rfl
    (Nat.le_of_succ_le_succ hi) (Nat.le_of_succ_le_succ hj) (kind_of_mem ht).2

end Edge

theorem kind_ne_of_mem_joined {token : Token} (h : token ∈ joined clauses) :
    token.kind ≠ .endOfFile := by
  obtain ⟨clause, -, hmem⟩ := List.mem_flatMap.mp h
  rw [tokens, List.mem_append, List.mem_singleton] at hmem
  rcases hmem with hmem | rfl
  · exact (kind_of_mem hmem).1.2
  · rw [clause.semicolon_kind]
    decide

theorem ofTokens_joined (clauses : List Clause) : ∃ stop : Token, stop.kind = .endOfFile ∧
    Cursor.ofTokens (joined clauses) = ⟨joined clauses, stop⟩ :=
  ⟨_, rfl, Cursor.ofTokens_of_forall fun _ hmem => kind_ne_of_mem_joined hmem⟩

theorem fails_eq (clause : Clause) : ∃ stop : Token, stop.kind = .endOfFile ∧
    clause.fails = !(failures clause.tokens.length ⟨clause.tokens, stop⟩).isEmpty := by
  obtain ⟨stop, hstop, hcursor⟩ := ofTokens_joined [clause]
  have hjoined : joined [clause] = clause.tokens := joined_cons
  rw [hjoined] at hcursor
  exact ⟨stop, hstop, by rw [fails, Program.isOk_ofTokens, Program.failures, hcursor]⟩

/-- A semicolon alone is a program with no statements. -/
theorem failures_of_body_eq_nil {i : Nat} (hbody : clause.body = [])
    (hstop : stop.kind = .endOfFile) : failures i ⟨clause.tokens, stop⟩ = [] := by
  rw [tokens, hbody, List.nil_append]
  cases i with
  | zero => rfl
  | succ i =>
    rw [failures_semicolon (c := ⟨[clause.semicolon], stop⟩) clause.semicolon_kind]
    exact failures_endOfFile (c := ⟨[], stop⟩) hstop

/-- How many clauses the errors can answer for: one each, and one more where an end is overrun. -/
def weight (failures : List (SyntaxError × Cursor)) : Nat :=
  failures.length + failures.countP overruns

theorem weight_cons (failure : SyntaxError × Cursor) (rest : List (SyntaxError × Cursor)) :
    weight (failure :: rest) = 1 + (if overruns failure then 1 else 0) + weight rest := by
  rw [weight, weight, List.length_cons, List.countP_cons]
  omega

theorem countP_cons_le (clause : Clause) (clauses : List Clause) :
    (clause :: clauses).countP fails ≤ 1 + clauses.countP fails := by
  rw [List.countP_cons]
  split <;> omega

/-- Within `n` tokens the errors answer for all failing clauses behind the one that is read, and for
this one if it fails by itself. -/
def Counted (n : Nat) : Prop :=
  ∀ (clause : Clause) (clauses : List Clause) (stop stop' : Token) (i : Nat),
    stop.kind = .endOfFile → stop'.kind = .endOfFile →
    (joined (clause :: clauses)).length ≤ n → clause.tokens.length ≤ i →
      clauses.countP fails + (if (failures i ⟨clause.tokens, stop'⟩).isEmpty then 0 else 1) ≤
        weight (failures n ⟨joined (clause :: clauses), stop⟩)

namespace Counted

variable (h : Counted n) (hstop : stop.kind = .endOfFile)

include h hstop

theorem countP_le (hn : (joined clauses).length ≤ n) :
    clauses.countP fails ≤ weight (failures n ⟨joined clauses, stop⟩) := by
  cases clauses with
  | nil => exact Nat.zero_le _
  | cons clause clauses =>
    obtain ⟨stop', hstop', hfails⟩ := clause.fails_eq
    have hclause := h clause clauses stop stop' _ hstop hstop' hn (Nat.le_refl _)
    rw [List.countP_cons, hfails]
    cases hempty : (failures clause.tokens.length ⟨clause.tokens, stop'⟩).isEmpty <;>
      simpa [hempty] using hclause

theorem countP_le_resume (clause : Clause) (clauses : List Clause)
    (hn : (joined (clause :: clauses)).length ≤ n) : clauses.countP fails ≤
      weight (failures n ⟨resume (joined (clause :: clauses)), stop⟩) := by
  rw [joined_cons]
  rw [length_joined_cons] at hn
  have hbody : ∀ token ∈ clause.body, token.kind ≠ .semicolon :=
    fun token hmem => (kind_of_mem hmem).1.1
  rcases resume_append hbody clause.semicolon_kind with hrest | ⟨m, hrest⟩
  · rw [hrest]
    exact h.countP_le hstop (by omega)
  · have hlength : (joined (clause.drop m :: clauses)).length ≤ n := by
      rw [joined_drop, List.length_append, List.length_cons, List.length_drop]
      omega
    have hclause := h (clause.drop m) clauses stop stop _ hstop hstop hlength (Nat.le_refl _)
    rw [joined_drop] at hclause
    rw [hrest]
    exact (Nat.le_add_right _ _).trans hclause

/-- A parser that looks for the next semicolon from behind a clause passes over one that fails at
most. -/
theorem countP_le_overrun (hn : (joined clauses).length ≤ n) :
    clauses.countP fails ≤ 1 + weight (failures n ⟨resume (joined clauses), stop⟩) := by
  cases clauses with
  | nil => exact Nat.zero_le _
  | cons clause clauses =>
    have hrest := h.countP_le_resume hstop clause clauses hn
    have hcons := countP_cons_le clause clauses
    omega

/-- The same with the first token behind the clause lost. -/
theorem countP_le_overrun_tail (hn : (joined clauses).length ≤ n) :
    clauses.countP fails ≤ 1 + weight (failures n ⟨resume (joined clauses).tail, stop⟩) := by
  cases clauses with
  | nil => exact Nat.zero_le _
  | cons clause clauses =>
    rw [length_joined_cons] at hn
    cases hbody : clause.body with
    | nil =>
      -- The token that is lost was all of a clause that does not fail.
      have hfails : clause.fails = false := by
        obtain ⟨stop', hstop', hfails⟩ := clause.fails_eq
        rw [hfails, failures_of_body_eq_nil hbody hstop']
        rfl
      rw [joined_cons, hbody, List.countP_cons_of_neg (by simp [hfails])]
      exact h.countP_le_overrun hstop (by omega)
    | cons x xs =>
      have hdrop : joined (clause.drop 1 :: clauses) = (joined (clause :: clauses)).tail := by
        rw [joined_drop, joined_cons, hbody]
        rfl
      have hlength := congrArg List.length hbody
      rw [List.length_cons] at hlength
      have hrest := h.countP_le_resume hstop (clause.drop 1) clauses
        (by rw [hdrop, List.length_tail, length_joined_cons]; omega)
      rw [hdrop] at hrest
      have hcons := countP_cons_le clause clauses
      omega

theorem countP_le_of_halts {error : SyntaxError} {c : Cursor} (hbody : clause.body ≠ [])
    (hn : (joined (clause :: clauses)).length ≤ n + 1)
    (hc : (clause.edge (joined clauses) stop).Halts clause.body error c) :
    clauses.countP fails ≤ (if overruns (error, c) then 1 else 0) +
      weight (failures n { c with ahead := resume c.ahead.tail }) := by
  rw [length_joined_cons] at hn
  have hpos : 0 < clause.body.length := List.length_pos_iff.mpr hbody
  rcases hc with ⟨m, rfl⟩ | ⟨rfl, hcause⟩
  · cases hdrop : clause.body.drop m with
    | nil =>
      rw [Cursor.prepend_nil]
      by_cases hresume : resume (joined clauses) = joined clauses
      · have hrest := h.countP_le hstop (by omega : (joined clauses).length ≤ n)
        rw [← hresume] at hrest
        exact hrest.trans (Nat.le_add_left _ _)
      · have hoverruns : overruns (error, clause.edge (joined clauses) stop) = true := by
          have htail : (clause.edge (joined clauses) stop).ahead.tail = joined clauses := rfl
          simp [overruns, current_edge, htail, hresume]
        rw [if_pos hoverruns]
        exact h.countP_le_overrun hstop (by omega)
    | cons x xs =>
      -- What is behind the token is a clause again.
      have hxs : clause.body.drop (m + 1) = xs := by
        rw [← List.tail_drop, hdrop, List.tail_cons]
      have hlength := congrArg List.length hdrop
      rw [List.length_drop, List.length_cons] at hlength
      have hjoined : joined (clause.drop (m + 1) :: clauses) =
          xs ++ clause.semicolon :: joined clauses := by
        rw [joined_drop, hxs]
      have hrest := h.countP_le_resume hstop (clause.drop (m + 1)) clauses
        (by rw [hjoined, List.length_append, List.length_cons]; omega)
      rw [hjoined] at hrest
      exact hrest.trans (Nat.le_add_left _ _)
  · have hoverruns : overruns (error, (clause.edge (joined clauses) stop).next) = true := by
      simp [overruns, hcause, current_edge]
    rw [if_pos hoverruns]
    exact h.countP_le_overrun_tail hstop (by omega)

end Counted

theorem counted_succ (h : Counted n) : Counted (n + 1) := by
  intro clause clauses stop stop' i hstop hstop' hn hi
  have hlength := hn
  rw [length_joined_cons] at hlength
  -- An empty clause is a lone semicolon, which is skipped.
  by_cases hbody : clause.body = []
  · have hskip : failures (n + 1) ⟨joined (clause :: clauses), stop⟩ =
        failures n ⟨joined clauses, stop⟩ := by
      rw [← prepend_edge, hbody, Cursor.prepend_nil, failures_semicolon current_edge]
      rfl
    rw [failures_of_body_eq_nil hbody hstop', hskip]
    exact h.countP_le hstop (by omega)
  rw [tokens, List.length_append, List.length_singleton] at hi
  obtain ⟨i, rfl⟩ : ∃ j, i = j + 1 := ⟨i - 1, by omega⟩
  rw [← prepend_edge, ← prepend_edge_nil]
  -- In the whole source and by itself the clause is read alike up to its semicolon.
  have htwin := form_twin hbody (by omega : clause.body.length ≤ n + 1)
    (by omega : clause.body.length ≤ i + 1) (joined clauses) [] stop stop'
  generalize hwhole : form n _ = r at htwin
  generalize halone : form i _ = r' at htwin
  cases htwin with
  | @ok stmt m hpos hm =>
    rw [failures_ok (inner_current hbody) (statement_of_ok hwhole),
      failures_ok (inner_current hbody) (statement_of_ok halone)]
    cases hdrop : clause.body.drop m with
    | nil =>
      rw [Cursor.prepend_nil, Cursor.prepend_nil, passed_edge, passed_edge,
        failures_endOfFile (c := ⟨[], stop'⟩) hstop']
      exact h.countP_le hstop (by omega)
    | cons x xs =>
      have hx : x ∈ clause.body := List.drop_subset m _ (hdrop ▸ List.mem_cons_self)
      rw [passed_of_mem hx, passed_of_mem hx, ← hdrop]
      have hdropped : (joined (clause.drop m :: clauses)).length ≤ n := by
        rw [joined_drop, List.length_append, List.length_cons, List.length_drop]
        omega
      have hrest := h (clause.drop m) clauses stop stop' i hstop hstop' hdropped (by
        rw [tokens, List.length_append, List.length_singleton, drop, List.length_drop]
        omega)
      rw [← prepend_edge, ← prepend_edge_nil] at hrest
      exact hrest
  | @error error error' c d hc hd =>
    have hrest := h.countP_le_of_halts hstop hbody hn hc
    rw [failures_error (inner_current hbody) (statement_of_error hwhole), weight_cons]
    split <;> omega

theorem counted (n : Nat) : Counted n := by
  induction n with
  | zero =>
    intro clause clauses stop stop' i _ _ hn
    simp at hn
  | succ n ih => exact counted_succ ih

end Clause

namespace Program

/-- A clause that fails by itself leads to an error of the whole. Only an error that overruns its
clause can hide another, and no more than one. -/
theorem failing_clauses_le (clauses : List Clause) :
    let whole := clauses.flatMap Clause.tokens
    clauses.countP (fun clause => !(ofTokens clause.tokens).isOk) ≤
        (errors whole).length + (failures whole).countP Parser.overruns ∧
      errors whole = (failures whole).map Prod.fst := by
  intro whole
  obtain ⟨stop, hstop, hcursor⟩ := Clause.ofTokens_joined clauses
  have hcount := (Clause.counted whole.length).countP_le hstop (Nat.le_refl _)
  have hfailures : failures whole = Parser.failures whole.length ⟨whole, stop⟩ := by
    rw [failures]
    exact congrArg (fun c : Cursor => Parser.failures c.ahead.length c) hcursor
  refine ⟨?_, errors_eq whole⟩
  rw [errors_eq, List.length_map, hfailures]
  exact hcount

/-- In two declarations without a value, the semicolon of the first is taken for its value. The
parser then looks for the next one, and the second declaration is not read. -/
theorem second_clause_lost :
    let token (kind : Kind) (text : String) : Token := .plain kind text (Span.point 0)
    ∃ first second : Clause,
      first.tokens = [token .letWord "let", token .identifier "x", token .equals "=",
        token .semicolon ";"] ∧
      second.tokens = [token .letWord "let", token .identifier "y", token .equals "=",
        token .semicolon ";"] ∧
      [first, second].countP (fun clause => !(ofTokens clause.tokens).isOk) = 2 ∧
      (errors ([first, second].flatMap Clause.tokens)).length = 1 := by
  intro token
  refine ⟨⟨[token .letWord "let", token .identifier "x", token .equals "="],
    token .semicolon ";", by decide, rfl⟩, ⟨[token .letWord "let", token .identifier "y",
    token .equals "="], token .semicolon ";", by decide, rfl⟩, rfl, rfl, ?_, ?_⟩
  all_goals rfl

end Program
end Script
