import Script.Proofs.Program.RoundTrip
import Script.Proofs.Program.Twins
import Script.Proofs.Token.Separation

namespace Script

/-- The cursors that a statement before the edge may leave when these tokens of it are not read. -/
def Cursor.Leaves (f : Cursor) (tokens : List Token) (d : Cursor) : Prop :=
  d = f.prepend tokens ∨ tokens = [] ∧ d = f.passed

theorem Cursor.length_ahead_passed_le (c : Cursor) : c.passed.ahead.length ≤ c.ahead.length := by
  rw [passed]
  split
  · rw [next, List.length_tail]
    omega
  · exact Nat.le_refl _

namespace Parser

variable {α : Type} {e f : Cursor} {v w : List Token} {n i j : Nat}

theorem Twin.carry {k : Nat} {a : α} {c : Cursor} {r : EStateM.Result SyntaxError Cursor α}
    (h : Twin e f v w k (.ok a c) r) : ∃ m, k ≤ m ∧ m ≤ v.length ∧ c = e.prepend (v.drop m) ∧
      r = .ok a (f.prepend (w.drop m)) := by
  cases h with
  | @ok _ m hk hm => exact ⟨m, hk, hm, rfl, rfl⟩

theorem Stuck.ne_ok {p : Parser α} (h : Stuck e p) (a : α) (c : Cursor) : p e ≠ .ok a c := by
  obtain ⟨error, c', hp, -⟩ := h
  rw [hp]
  intro heq
  cases heq

def header (n : Nat) : Parser (String × List String) := do
  let _ ← expect .funcWord
  let name ← identifier .functionName
  let _ ← expect .openParen
  let names ← if ← check .closeParen then pure [] else parameters n
  let _ ← expect .closeParen
  let _ ← expect .openBrace
  return (name.text, names)

theorem ite_bind {β : Type} (b : Bool) (p q : Parser α) (g : α → Parser β) :
    ((if b = true then p else q) >>= g) = if b = true then p >>= g else q >>= g := by
  cases b <;> rfl

theorem function_eq (statement : Parser Stmt) (n : Nat) : function statement n =
    header n >>= fun signature => block statement n >>= fun body =>
      pure (.function signature.1 signature.2 body) := by
  simp only [function, header, bind_assoc, pure_bind, ite_bind]

theorem form_of_funcWord {c : Cursor} (h : c.current.kind = .funcWord) :
    form n c = function (statement n) n c := by
  rw [form, peek_bind]
  simp only [h]

theorem stuck_parameters (he : e.AtEdge) : Stuck e (parameters i) := by
  cases i with
  | zero => exact (stuck_identifier he).bind _
  | succ i => exact (stuck_identifier he).bind _

theorem parameters_twins (he : e.AtEdge) (hf : f.AtEdge) (hi : n ≤ i) (hj : n ≤ j) :
    Twins e f n 1 (parameters i) (parameters j) := by
  induction n generalizing i j with
  | zero => exact .of_stuck (stuck_parameters he) (stuck_parameters hf)
  | succ n ih =>
    obtain ⟨i, rfl⟩ := Nat.exists_eq_add_one_of_ne_zero (Nat.ne_zero_of_lt hi)
    obtain ⟨j, rfl⟩ := Nat.exists_eq_add_one_of_ne_zero (Nat.ne_zero_of_lt hj)
    have hrest := ih (Nat.le_of_succ_le_succ hi) (Nat.le_of_succ_le_succ hj)
    refine .identifier_bind he hf fun t u htu => ?_
    have htext : t.text = u.text := congrArg Lexeme.text htu
    simp only [htext]
    refine .ite_accept he hf (by decide) ?_ (.pure _)
    exact (hrest.mono (by omega) (Nat.zero_le 1)).bind fun names => .pure _

theorem header_twins (he : e.AtEdge) (hf : f.AtEdge) (hi : n ≤ i) (hj : n ≤ j) :
    Twins e f (n + 1) 1 (header i) (header j) := by
  refine .expect_bind he hf (by decide) fun _ _ => ?_
  refine (Twins.identifier_bind he hf fun t u htu => ?_).zero
  have htext : t.text = u.text := congrArg Lexeme.text htu
  simp only [htext]
  refine (Twins.expect_bind he hf (by decide) fun _ _ => ?_).zero
  have hclosers : ∀ m (names : List String), Twins e f m 0
      (expect .closeParen >>= fun _ => expect .openBrace >>= fun _ => pure (u.text, names))
      (expect .closeParen >>= fun _ => expect .openBrace >>= fun _ => pure (u.text, names)) :=
    fun m names => (Twins.expect_bind he hf (by decide) fun _ _ =>
      (Twins.expect_bind he hf (by decide) fun _ _ => .pure _).zero).zero
  refine .ite_check he hf (by decide) (hclosers _ []) ?_
  exact ((parameters_twins he hf (by omega) (by omega)).bind fun names => hclosers _ names).zero

/-- Statements that the one parser reads in front of `e` are read by the other in front of `f`. -/
def Carries (e f : Cursor) (n : Nat) (p q : Parser Stmt) : Prop :=
  ∀ (v w : List Token) (stmt : Stmt) (c : Cursor), v.map Token.lexeme = w.map Token.lexeme →
    v.length ≤ n → p (e.prepend v) = .ok stmt c →
      ∃ m d, 1 ≤ m ∧ m ≤ v.length ∧ c = e.prepend (v.drop m) ∧ f.Leaves (w.drop m) d ∧
        q (f.prepend w) = .ok stmt d

theorem Carries.mono {p q : Parser Stmt} {m : Nat} (h : Carries e f n p q) (hm : m ≤ n) :
    Carries e f m p q :=
  fun v w stmt c hvw hv => h v w stmt c hvw (hv.trans hm)

/-- A statement with more behind it leaves the edge alone. -/
theorem Carries.of_rest {p q : Parser Stmt} {rest : Parser α} {stmt : Stmt} {a : α} {c d : Cursor}
    (h : Carries e f n p q) (hstuck : Stuck e rest)
    (hvw : v.map Token.lexeme = w.map Token.lexeme) (hv : v.length ≤ n)
    (hstmt : p (e.prepend v) = .ok stmt c) (hrest : rest c = .ok a d) :
    ∃ m, 1 ≤ m ∧ m ≤ v.length ∧ c = e.prepend (v.drop m) ∧
      q (f.prepend w) = .ok stmt (f.prepend (w.drop m)) := by
  obtain ⟨m, c', hpos, hm, rfl, hleaves, hstmt'⟩ := h v w stmt c hvw hv hstmt
  have hne : w.drop m ≠ [] := by
    intro hnil
    have hdrop := Token.map_lexeme_drop hvw m
    rw [hnil] at hdrop
    rw [List.map_eq_nil_iff.mp hdrop] at hrest
    exact hstuck.ne_ok a d hrest
  obtain rfl : c' = f.prepend (w.drop m) := hleaves.resolve_right fun hend => hne hend.1
  exact ⟨m, hpos, hm, rfl, hstmt'⟩

section EndMark

variable (he : e.current.kind = .endOfFile) (hf : f.AtEdge)

include he

theorem stuck_block {statement : Parser Stmt} : Stuck e (block statement i) := by
  have hcloser : Kind.Inner .closeBrace := by decide
  have hexpect := (stuck_expect (.inr he) hcloser).bind fun _ => (pure [] : Parser (List Stmt))
  cases i with
  | zero => exact hexpect
  | succ i =>
    obtain ⟨error, c, h, hc⟩ := hexpect
    exact ⟨error, c, (atCloser_pos (.inr he)).trans h, hc⟩

theorem stuck_form : Stuck e (form i) := by
  have hexpr : Stuck e (Stmt.expr <$> expression (i + 1)) := by
    rw [map_eq_pure_bind]
    exact (stuck_expression (.inr he)).bind _
  obtain ⟨error, c, h, hc⟩ := hexpr
  refine ⟨error, c, ?_, hc⟩
  rw [form, peek_bind]
  simp only [he]
  exact h

theorem stuck_statement : Stuck e (statement i) := by
  cases i with
  | zero => exact (stuck_expression (.inr he)).bind _
  | succ i =>
    rw [statement_succ]
    exact (stuck_form he).bind _

include hf

theorem block_carries {p q : Parser Stmt} (h : Carries e f n p q) (hi : n ≤ i) (hj : n ≤ j)
    {stmts : List Stmt} {c : Cursor} (hvw : v.map Token.lexeme = w.map Token.lexeme)
    (hv : v.length ≤ n) (hblock : block p i (e.prepend v) = .ok stmts c) :
    ∃ m, m ≤ v.length ∧ c = e.prepend (v.drop m) ∧
      block q j (f.prepend w) = .ok stmts (f.prepend (w.drop m)) := by
  induction n generalizing i j v w stmts with
  | zero =>
    rw [List.eq_nil_of_length_eq_zero (Nat.le_zero.mp hv)] at hblock
    exact absurd hblock ((stuck_block he).ne_ok stmts c)
  | succ n ih =>
    obtain ⟨i, rfl⟩ := Nat.exists_eq_add_one_of_ne_zero (Nat.ne_zero_of_lt hi)
    obtain ⟨j, rfl⟩ := Nat.exists_eq_add_one_of_ne_zero (Nat.ne_zero_of_lt hj)
    have hi' := Nat.le_of_succ_le_succ hi
    have hj' := Nat.le_of_succ_le_succ hj
    have h' := h.mono (Nat.le_succ n)
    have hclosing : Kind.Inner .closeBrace := by decide
    cases v with
    | nil => exact absurd hblock ((stuck_block he).ne_ok stmts c)
    | cons t v =>
      obtain ⟨u, w, rfl, htu, htail⟩ := List.map_eq_cons_iff.mp hvw.symm
      have hkind : t.kind = u.kind := (congrArg Lexeme.kind htu).symm
      rw [block] at hblock ⊢
      -- The next token decides what the loop does, and it is of the same kind in both runs.
      by_cases hcloser : t.kind = .closeBrace ∨ t.kind = .endOfFile
      · have htwin := (Twins.expect_bind (β := List Stmt) (.inr he) hf hclosing fun _ _ => .pure [])
          (t :: v) (u :: w) hvw (Nat.le_refl _)
        rw [atCloser_pos (c := e.prepend (t :: v)) hcloser] at hblock
        rw [atCloser_pos (c := f.prepend (u :: w)) (hkind ▸ hcloser)]
        rw [hblock] at htwin
        obtain ⟨m, -, hm, hc, hd⟩ := htwin.carry
        exact ⟨m, hm, hc, hd⟩
      rw [atCloser_neg (c := e.prepend (t :: v)) hcloser] at hblock
      rw [atCloser_neg (c := f.prepend (u :: w)) (hkind ▸ hcloser)]
      by_cases hsemicolon : t.kind = .semicolon
      · rw [accept_pos (c := e.prepend (t :: v)) hsemicolon] at hblock
        rw [accept_pos (c := f.prepend (u :: w)) (hkind ▸ hsemicolon)]
        obtain ⟨m, hm, hc, hd⟩ := ih h' hi' hj' htail.symm (Nat.le_of_succ_le_succ hv) hblock
        exact ⟨m + 1, Nat.succ_le_succ hm, hc, hd⟩
      rw [accept_neg (c := e.prepend (t :: v)) hsemicolon] at hblock
      rw [accept_neg (c := f.prepend (u :: w)) (hkind ▸ hsemicolon)]
      obtain ⟨stmt, c₁, hstmt, hrest⟩ := bind_eq_ok.mp hblock
      obtain ⟨others, c₂, hothers, hpure⟩ := bind_eq_ok.mp hrest
      obtain ⟨rfl, rfl⟩ := EStateM.Result.ok.inj hpure
      obtain ⟨m, hpos, hm, rfl, hstmt'⟩ := h.of_rest (stuck_block he) hvw hv hstmt hothers
      obtain ⟨l, hl, hc, hd⟩ := ih h' hi' hj' (Token.map_lexeme_drop hvw m)
        (by rw [List.length_drop]; omega) hothers
      rw [List.length_drop] at hl
      rw [List.drop_drop] at hc hd
      refine ⟨m + l, by omega, hc, ?_⟩
      rw [bind_of_ok hstmt', bind_of_ok hd]
      rfl

omit hf in
/-- A statement takes the semicolon behind it, be it the edge or not. -/
theorem passed_carries (hvw : v.map Token.lexeme = w.map Token.lexeme) :
    ∃ l ≤ v.length, (e.prepend v).passed = e.prepend (v.drop l) ∧
      f.Leaves (w.drop l) (f.prepend w).passed := by
  cases v with
  | nil =>
    obtain rfl := List.map_eq_nil_iff.mp hvw.symm
    have hend : e.current.kind ≠ .semicolon := by rw [he]; decide
    exact ⟨0, Nat.le_refl 0, Cursor.passed_of_ne hend, .inr ⟨rfl, rfl⟩⟩
  | cons t v =>
    obtain ⟨u, w, rfl, htu, -⟩ := List.map_eq_cons_iff.mp hvw.symm
    have hkind : u.kind = t.kind := congrArg Lexeme.kind htu
    by_cases hsemicolon : t.kind = .semicolon
    · exact ⟨1, Nat.succ_pos _, Cursor.passed_of_eq (c := e.prepend (t :: v)) hsemicolon,
        .inl (Cursor.passed_of_eq (c := f.prepend (u :: w)) (hkind.trans hsemicolon))⟩
    · exact ⟨0, Nat.zero_le _, Cursor.passed_of_ne (c := e.prepend (t :: v)) hsemicolon,
        .inl (Cursor.passed_of_ne (c := f.prepend (u :: w)) (hkind.symm ▸ hsemicolon))⟩

theorem form_carries {t u : Token} {stmt : Stmt} {c : Cursor}
    (h : Carries e f n (statement i) (statement j)) (hi : n ≤ i) (hj : n ≤ j)
    (hvw : (t :: v).map Token.lexeme = (u :: w).map Token.lexeme) (hv : v.length ≤ n)
    (hform : form i (e.prepend (t :: v)) = .ok stmt c) :
    ∃ m, 1 ≤ m ∧ m ≤ (t :: v).length ∧ c = e.prepend ((t :: v).drop m) ∧
      form j (f.prepend (u :: w)) = .ok stmt (f.prepend ((u :: w).drop m)) := by
  obtain ⟨htu, htail⟩ := List.cons.inj hvw
  have hkind : t.kind = u.kind := congrArg Lexeme.kind htu
  -- Only a function has statements inside it, for which the induction hypothesis is needed.
  by_cases hword : t.kind = .funcWord
  · rw [form_of_funcWord (c := e.prepend (t :: v)) hword, function_eq] at hform
    rw [form_of_funcWord (c := f.prepend (u :: w)) (hkind ▸ hword), function_eq]
    obtain ⟨signature, c₁, hheader, hrest⟩ := bind_eq_ok.mp hform
    obtain ⟨body, c₂, hbody, hpure⟩ := bind_eq_ok.mp hrest
    obtain ⟨rfl, rfl⟩ := EStateM.Result.ok.inj hpure
    have htwin := header_twins (.inr he) hf hi hj (t :: v) (u :: w) hvw (Nat.succ_le_succ hv)
    rw [hheader] at htwin
    obtain ⟨m, hpos, hm, rfl, hheader'⟩ := htwin.carry
    rw [List.length_cons] at hm
    have hdrop := Token.map_lexeme_drop hvw m
    obtain ⟨l, hl, hc, hbody'⟩ := block_carries he hf h hi hj hdrop
      (by rw [List.length_drop, List.length_cons]; omega) hbody
    rw [List.length_drop, List.length_cons] at hl
    rw [List.drop_drop] at hc hbody'
    refine ⟨m + l, by omega, by rw [List.length_cons]; omega, hc, ?_⟩
    rw [bind_of_ok hheader', bind_of_ok hbody']
    rfl
  · have htwin := form_twin (.inr he) hf htu htail (hv.trans hi) (hv.trans hj) hword
    rw [hform] at htwin
    exact htwin.carry

theorem statement_carries (hi : n ≤ i) (hj : n ≤ j) :
    Carries e f n (statement i) (statement j) := by
  induction n generalizing i j with
  | zero =>
    intro v w stmt c hvw hv hstmt
    rw [List.eq_nil_of_length_eq_zero (Nat.le_zero.mp hv)] at hstmt
    exact absurd hstmt ((stuck_statement he).ne_ok stmt c)
  | succ n ih =>
    obtain ⟨i, rfl⟩ := Nat.exists_eq_add_one_of_ne_zero (Nat.ne_zero_of_lt hi)
    obtain ⟨j, rfl⟩ := Nat.exists_eq_add_one_of_ne_zero (Nat.ne_zero_of_lt hj)
    intro v w stmt c hvw hv hstmt
    cases v with
    | nil => exact absurd hstmt ((stuck_statement he).ne_ok stmt c)
    | cons t v =>
      obtain ⟨u, w, rfl, -, -⟩ := List.map_eq_cons_iff.mp hvw.symm
      cases hform : form i (e.prepend (t :: v)) with
      | error error c' =>
        rw [statement_of_error hform] at hstmt
        cases hstmt
      | ok stmt' c' =>
        rw [statement_of_ok hform] at hstmt
        obtain ⟨rfl, rfl⟩ := EStateM.Result.ok.inj hstmt
        have hi := Nat.le_of_succ_le_succ hi
        have hj := Nat.le_of_succ_le_succ hj
        obtain ⟨m, hpos, hm, rfl, hform'⟩ := form_carries he hf (ih hi hj) hi hj hvw
          (Nat.le_of_succ_le_succ hv) hform
        obtain ⟨l, hl, hc, hd⟩ := passed_carries (f := f) he (Token.map_lexeme_drop hvw m)
        rw [List.length_drop] at hl
        rw [List.drop_drop] at hc hd
        exact ⟨m + l, _, by omega, by omega, hc, hd, statement_of_ok hform'⟩

omit he in
theorem statements_edge (hj : f.ahead.length ≤ j) :
    ∃ k, f.passed.ahead.length ≤ k ∧ statements j f = statements k f.passed := by
  rcases hf with hf | hf
  · rw [Cursor.passed_of_eq hf, Cursor.next, List.length_tail]
    cases j with
    | zero => exact ⟨0, by omega, rfl⟩
    | succ j => exact ⟨j, by omega, statements_semicolon hf⟩
  · have hne : f.current.kind ≠ .semicolon := by rw [hf]; decide
    rw [Cursor.passed_of_ne hne]
    exact ⟨j, hj, rfl⟩

/-- Statements that are read without an error up to an end mark are read in front of another edge
too, and the parser goes on behind it. -/
theorem statements_carry (hv : ∀ token ∈ v, token.kind ≠ .endOfFile)
    (hvw : v.map Token.lexeme = w.map Token.lexeme) (hi : v.length ≤ i)
    (hj : v.length + f.ahead.length ≤ j) {stmts : List Stmt}
    (h : statements i (e.prepend v) = (stmts, [])) :
    ∃ k, f.passed.ahead.length ≤ k ∧ statements j (f.prepend w) =
      (stmts ++ (statements k f.passed).1, (statements k f.passed).2) := by
  -- The bounds of the two runs are independent. Each statement takes at least one token of both.
  induction i generalizing v w j stmts with
  | zero =>
    obtain rfl := List.eq_nil_of_length_eq_zero (Nat.le_zero.mp hi)
    obtain rfl := List.map_eq_nil_iff.mp hvw.symm
    obtain ⟨rfl, -⟩ := Prod.mk.inj h
    rw [List.length_nil, Nat.zero_add] at hj
    exact statements_edge hf hj
  | succ i ih =>
    cases v with
    | nil =>
      obtain rfl := List.map_eq_nil_iff.mp hvw.symm
      rw [Cursor.prepend_nil, statements_endOfFile he] at h
      obtain ⟨rfl, -⟩ := Prod.mk.inj h
      rw [List.length_nil, Nat.zero_add] at hj
      exact statements_edge hf hj
    | cons t v =>
      obtain ⟨u, w, rfl, htu, htail⟩ := List.map_eq_cons_iff.mp hvw.symm
      have hkind : u.kind = t.kind := congrArg Lexeme.kind htu
      rw [List.length_cons] at hi hj
      have hend : t.kind ≠ .endOfFile := hv t List.mem_cons_self
      obtain ⟨j, rfl⟩ : ∃ l, j = l + 1 := ⟨j - 1, by omega⟩
      by_cases hsemicolon : t.kind = .semicolon
      · rw [statements_semicolon (c := e.prepend (t :: v)) hsemicolon] at h
        rw [statements_semicolon (c := f.prepend (u :: w)) (hkind.trans hsemicolon)]
        exact ih (fun token hmem => hv token (List.mem_cons_of_mem t hmem)) htail.symm (by omega)
          (by omega) h
      cases hstmt : statement (i + 1) (e.prepend (t :: v)) with
      | error error c =>
        have herrors := statements_error (c := e.prepend (t :: v)) ⟨hsemicolon, hend⟩ hstmt
        rw [h] at herrors
        cases herrors
      | ok stmt c =>
        rw [statements_ok (c := e.prepend (t :: v)) hend hsemicolon hstmt] at h
        obtain ⟨rfl, herrors⟩ := Prod.mk.inj h
        obtain ⟨m, d, hpos, hm, rfl, hleaves, hstmt'⟩ := statement_carries he hf hi
          (by omega : v.length + 1 ≤ j + 1) (t :: v) (u :: w) stmt c hvw (Nat.le_refl _) hstmt
        rw [statements_ok (c := f.prepend (u :: w)) (hkind ▸ hend) (hkind ▸ hsemicolon) hstmt']
        have hdrop := Token.map_lexeme_drop hvw m
        rcases hleaves with rfl | ⟨hnil, rfl⟩
        · have hlength : ((t :: v).drop m).length ≤ v.length := by
            rw [List.length_drop, List.length_cons]
            omega
          obtain ⟨k, hk, hrest⟩ := ih (fun token hmem => hv token (List.drop_subset m _ hmem)) hdrop
            (by omega) (by omega : ((t :: v).drop m).length + f.ahead.length ≤ j)
            (Prod.ext rfl herrors)
          exact ⟨k, hk, by rw [hrest]; rfl⟩
        · -- The statement was the last one, and took the edge.
          rw [hnil] at hdrop
          rw [List.map_eq_nil_iff.mp hdrop, Cursor.prepend_nil, statements_endOfFile he]
          have hpassed := f.length_ahead_passed_le
          exact ⟨j, by omega, rfl⟩

end EndMark
end Parser

theorem Token.kind_ne_of_map_lexeme {u w : List Token} {kind : Kind}
    (huw : u.map lexeme = w.map lexeme) (hu : ∀ token ∈ u, token.kind ≠ kind) :
    ∀ token ∈ w, token.kind ≠ kind := by
  intro token hmem hkind
  have hmem' : kind ∈ u.map Token.kind := by
    rw [map_kind_eq huw, ← hkind]
    exact List.mem_map_of_mem hmem
  obtain ⟨token', htoken', hkind'⟩ := List.mem_map.mp hmem'
  exact hu token' htoken' hkind'

theorem Cursor.prepend_at_stop {tokens : List Token} {stop : Token} :
    (⟨[], stop⟩ : Cursor).prepend tokens = ⟨tokens, stop⟩ := by
  rw [prepend, List.append_nil]

theorem Cursor.ofTokens_endOfFile {tokens : List Token} {size : Nat}
    (h : ∀ token ∈ tokens, token.kind ≠ .endOfFile) :
    ofTokens (tokens ++ [Token.endOfFile size]) = ⟨tokens, Token.endOfFile size⟩ :=
  ofTokens_of_stop h rfl

namespace Program

theorem ofTokens_eq_ok_iff {tokens : List Token} {program : Program} :
    ofTokens tokens = .ok program ↔
      Parser.statements (Cursor.ofTokens tokens).ahead.length (Cursor.ofTokens tokens) =
        (program, []) := by
  rw [ofTokens]
  generalize Parser.statements _ _ = result
  obtain ⟨stmts, _ | ⟨error, errors⟩⟩ := result <;> simp

theorem parse_eq_ok_iff {source : String} {program : Program} :
    parse source = .ok program ↔
      ∃ tokens, Source.tokenize source = .ok tokens ∧ ofTokens tokens = .ok program := by
  rw [parse]
  cases Source.tokenize source <;> simp

/-- Programs with a semicolon between them are one program. -/
theorem ofTokens_append {v u w : List Token} {semicolon : Token} {p q : Program}
    {size size' : Nat} (hv : ∀ token ∈ v, token.kind ≠ .endOfFile)
    (hu : ∀ token ∈ u, token.kind ≠ .endOfFile) (hsemicolon : semicolon.kind = .semicolon)
    (huw : u.map Token.lexeme = w.map Token.lexeme)
    (hp : ofTokens (v ++ [Token.endOfFile size]) = .ok p)
    (hq : ofTokens (u ++ [Token.endOfFile size']) = .ok q) (total : Nat) :
    ofTokens (v ++ semicolon :: w ++ [Token.endOfFile total]) = .ok (p ++ q) := by
  have hw := Token.kind_ne_of_map_lexeme huw hu
  have hall : ∀ token ∈ v ++ semicolon :: w, token.kind ≠ .endOfFile := by
    simp only [List.mem_append, List.mem_cons]
    rintro token (hmem | rfl | hmem)
    · exact hv token hmem
    · rw [hsemicolon]
      decide
    · exact hw token hmem
  rw [ofTokens_eq_ok_iff, Cursor.ofTokens_endOfFile hv, ← Cursor.prepend_at_stop] at hp
  rw [ofTokens_eq_ok_iff, Cursor.ofTokens_endOfFile hu, ← Cursor.prepend_at_stop] at hq
  rw [ofTokens_eq_ok_iff, Cursor.ofTokens_endOfFile hall]
  -- The semicolon is the edge of the first program, and the end mark the edge of the second.
  let edge : Cursor := ⟨semicolon :: w, Token.endOfFile total⟩
  let last : Cursor := ⟨[], Token.endOfFile total⟩
  have hpassed : edge.passed = last.prepend w := by
    rw [Cursor.prepend_at_stop]
    exact Cursor.passed_of_eq (c := edge) hsemicolon
  obtain ⟨k, hk, hfirst⟩ := Parser.statements_carry (f := edge) rfl (.inl hsemicolon) hv rfl
    (by simp [Cursor.prepend]) (Nat.le_of_eq (List.length_append).symm) hp
  rw [hpassed] at hk hfirst
  have hlength : u.length + last.ahead.length ≤ k := by
    have hsame := congrArg List.length huw
    rw [List.length_map, List.length_map] at hsame
    rw [Cursor.prepend, List.length_append] at hk
    omega
  obtain ⟨l, -, hsecond⟩ := Parser.statements_carry (f := last) rfl (.inr rfl) hu huw
    (by simp [Cursor.prepend]) hlength hq
  have hend : last.current.kind = .endOfFile := rfl
  have hlast : last.passed = last := Cursor.passed_of_ne (by rw [hend]; decide)
  rw [hlast, Parser.statements_endOfFile hend] at hsecond
  rw [hsecond, List.append_nil] at hfirst
  exact hfirst

end Program

def Source.Says (source : String) (ls : List Lexeme) : Prop :=
  lexemes source = .ok (ls ++ [⟨.endOfFile, "EndOfFile"⟩])

theorem Cursor.steps_prepend (c : Cursor) (tokens : List Token) :
    (c.prepend tokens).Steps (tokens.map Token.lexeme) c := by
  induction tokens with
  | nil => rfl
  | cons token tokens ih => exact ⟨List.cons_ne_nil _ _, rfl, ih⟩

namespace Parser

variable {c : Cursor}

theorem statements_semicolons (n : Nat) (hstop : c.stop.kind = .endOfFile)
    (h : ∀ token ∈ c.ahead, token.kind = .semicolon) : statements n c = ([], []) := by
  induction n generalizing c with
  | zero => rfl
  | succ n ih =>
    obtain ⟨ahead, stop⟩ := c
    cases ahead with
    | nil => exact statements_endOfFile hstop
    | cons token ahead =>
      rw [List.forall_mem_cons] at h
      rw [statements_semicolon (c := ⟨token :: ahead, stop⟩) h.1]
      exact ih hstop h.2

/-- An expression with nothing but semicolons behind it is a program. -/
theorem statements_expression {ls : List Lexeme} {e : Expr} {c' : Cursor} {n : Nat}
    (h : Derives .assignment ls e) (hsteps : c.Steps ls c') (hn : ls.length ≤ n)
    (hstop : c'.stop.kind = .endOfFile) (hrest : ∀ token ∈ c'.ahead, token.kind = .semicolon) :
    statements n c = ([.expr e], []) := by
  have hpos := h.length_pos
  obtain ⟨n, rfl⟩ : ∃ k, n = k + 1 := ⟨n - 1, by omega⟩
  have hstart := h.startsWith_current hsteps
  have hinner : c.current.kind ≠ .endOfFile ∧ c.current.kind ≠ .semicolon := by
    rcases hstart with hmem | ⟨hbrace, -⟩
    · have hopeners : ∀ kind ∈ Kind.openers, kind ≠ .endOfFile ∧ kind ≠ .semicolon := by decide
      exact hopeners _ hmem
    · rw [hbrace]
      decide
  -- What follows is an edge, so the expression is read up to there and not beyond.
  have hedge : c'.AtEdge := by
    obtain ⟨ahead, stop⟩ := c'
    cases ahead with
    | nil => exact .inr hstop
    | cons token ahead => exact .inl (hrest token List.mem_cons_self)
  have hexpression : expression (n + 1) c = .ok e c' := h.parses hsteps hn hedge.stops
  have hform : form n c = .ok (.expr e) c' := by
    rw [form_expr hstart]
    exact map_eq_ok.mpr ⟨e, hexpression, rfl⟩
  have hpassed : statements n c'.passed = ([], []) := by
    unfold Cursor.passed
    split
    · exact statements_semicolons n hstop fun token hmem => hrest token (List.mem_of_mem_tail hmem)
    · exact statements_semicolons n hstop hrest
  rw [statements_ok hinner.1 hinner.2 (statement_of_ok hform), hpassed]

end Parser

theorem Program.parse_of_derives {source : String} {ls semicolons : List Lexeme} {e : Expr}
    (hspelled : Source.Says source (ls ++ semicolons)) (h : Derives .assignment ls e)
    (hsemicolons : ∀ l ∈ semicolons, l.kind = .semicolon) : parse source = .ok [.expr e] := by
  obtain ⟨tokens, last, htokens, hlexemes, -⟩ := exists_tokens hspelled
  obtain ⟨-, hall⟩ := Source.tokenize_eq_ok_iff.mp htokens
  obtain ⟨rfl, hlast⟩ := List.append_inj' hall rfl
  obtain rfl := List.singleton_inj.mp hlast
  refine parse_eq_ok_iff.mpr ⟨_, htokens, ofTokens_eq_ok_iff.mpr ?_⟩
  rw [Cursor.ofTokens_endOfFile (Source.kind_ne_of_mem_tokens source)]
  obtain ⟨first, rest, hsplit, rfl, rfl⟩ := List.map_eq_append_iff.mp hlexemes
  rw [hsplit]
  let edge : Cursor := ⟨rest, Token.endOfFile (Source.byteSize source.toList)⟩
  refine Parser.statements_expression h (edge.steps_prepend first) ?_ rfl ?_
  · simp
  · intro token hmem
    exact hsemicolons token.lexeme (List.mem_map_of_mem hmem)

theorem Program.parse_expression {source : String} {ls : List Lexeme} {e : Expr}
    (hspelled : Source.Says source ls) (h : Derives .assignment ls e) :
    parse source = .ok [.expr e] := by
  rw [← List.append_nil ls] at hspelled
  exact parse_of_derives hspelled h (by simp)

end Script
