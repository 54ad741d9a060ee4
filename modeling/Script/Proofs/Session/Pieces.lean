import Script.Proofs.Evaluation.Equations
import Script.Proofs.Program.Sequence
import Script.Session

namespace Script

/-- Only the last of some statements gives the value. -/
theorem Eval.program_append (limit : Nat) (scope : ScopeId) (first second : Program) :
    Eval.program limit scope (first ++ second) = (do
      let value ← Eval.program limit scope first
      if second = [] then return value else Eval.program limit scope second) := by
  rw [program, body, List.foldlM_append]
  congr 1
  funext value
  cases second with
  | nil => rfl
  | cons stmt second =>
    rw [if_neg (List.cons_ne_nil stmt second), program, body, List.foldlM_cons, List.foldlM_cons]

/-- A source that does not end inside a string or a block comment goes on behind a semicolon on a
line of its own. -/
theorem Program.parse_separated {first second : String} {p q : Program}
    (hfirst : parse first = .ok p) (hsecond : parse second = .ok q)
    (hend : Source.endsUnterminated first = false) :
    parse (first ++ Source.separator ++ second) = .ok (p ++ q) := by
  obtain ⟨all, hall, hp⟩ := parse_eq_ok_iff.mp hfirst
  obtain ⟨all', hall', hq⟩ := parse_eq_ok_iff.mp hsecond
  obtain ⟨hstrays, rfl⟩ := Source.tokenize_eq_ok_iff.mp hall
  obtain ⟨hstrays', rfl⟩ := Source.tokenize_eq_ok_iff.mp hall'
  obtain ⟨semicolon, more, size, hsemicolon, hmore, htokens⟩ :=
    Source.tokenize_separated hstrays hstrays' hend
  refine parse_eq_ok_iff.mpr ⟨_, htokens, ?_⟩
  exact ofTokens_append (Source.kind_ne_of_mem_tokens first) (Source.kind_ne_of_mem_tokens second)
    hsemicolon hmore.symm hp hq size

namespace Session

/-- Evaluates a source and then another one, unless the first fails. One without statements leaves
the value of the first. -/
def evalInTurn (session : Session) (first second : String) : Except Failure Value × Session :=
  match session.eval first with
  | (.error failure, session) => (.error failure, session)
  | (.ok value, session) =>
    match Program.parse second with
    | .ok [] => (.ok value, (session.eval second).2)
    | _ => session.eval second

def settle (session : Session) :
    EStateM.Result RuntimeError State Value → Except Failure Value × Session
  | .ok value state => (.ok value, { session with state := state })
  | .error error state => (.error (.runtime error), { session with state := state })

theorem eval_eq_settle {session : Session} {source : String} {program : Program}
    (h : Program.parse source = .ok program) : session.eval source =
      session.settle (Eval.program session.limit session.globals program session.state) := by
  simp only [eval, h]
  cases Eval.program session.limit session.globals program session.state <;> rfl

/-- A session that is fed in pieces gets where the whole source takes it at once: to the same value
or failure, and to the same scopes, containers and output. -/
theorem eval_pieces {first second : String} {p q : Program}
    (hfirst : Program.parse first = .ok p) (hsecond : Program.parse second = .ok q)
    (hend : Source.endsUnterminated first = false) :
    Program.parse (first ++ "\n;\n" ++ second) = .ok (p ++ q) ∧
      ∀ session : Session, session.eval (first ++ "\n;\n" ++ second) =
        session.evalInTurn first second := by
  have hparse : Program.parse (first ++ "\n;\n" ++ second) = .ok (p ++ q) :=
    Program.parse_separated hfirst hsecond hend
  refine ⟨hparse, fun session => ?_⟩
  rw [evalInTurn, eval_eq_settle hparse, Eval.program_append, eval_eq_settle hfirst]
  cases hvalue : Eval.program session.limit session.globals p session.state with
  | error error state =>
    rw [Eval.bind_of_error hvalue]
    rfl
  | ok value state =>
    rw [Eval.bind_of_ok hvalue]
    simp only [settle, hsecond]
    cases q with
    | nil =>
      rw [eval_eq_settle hsecond]
      rfl
    | cons stmt q =>
      rw [eval_eq_settle hsecond, if_neg (List.cons_ne_nil stmt q)]
      rfl

/-- The first source ends with a comment, and the second one would be its argument if nothing stood
between them. -/
theorem eval_pieces_commented : ∃ p q : Program,
    Program.parse "print //" = .ok p ∧ Program.parse "(null)" = .ok q ∧
      Source.endsUnterminated "print //" = false ∧
      Program.parse ("print //" ++ "\n;\n" ++ "(null)") = .ok (p ++ q) ∧
      ∀ session : Session, session.eval ("print //" ++ "\n;\n" ++ "(null)") =
        session.evalInTurn "print //" "(null)" := by
  have hfirst : Program.parse "print //" = .ok [.expr (.name "print")] := by
    have htokens : Source.tokenize "print //" =
        .ok [.plain .identifier "print" ⟨0, 5⟩, .endOfFile 8] := by decide +kernel
    exact Program.parse_eq_ok_iff.mpr ⟨_, htokens, rfl⟩
  have hsecond : Program.parse "(null)" = .ok [.expr (.name "null")] := by
    have htokens : Source.tokenize "(null)" = .ok [.plain .openParen "(" ⟨0, 1⟩,
        .plain .identifier "null" ⟨1, 5⟩, .plain .closeParen ")" ⟨5, 6⟩, .endOfFile 6] := by
      decide +kernel
    exact Program.parse_eq_ok_iff.mpr ⟨_, htokens, rfl⟩
  have hend : Source.endsUnterminated "print //" = false := by decide +kernel
  exact ⟨_, _, hfirst, hsecond, hend, eval_pieces hfirst hsecond hend⟩

end Session
end Script
