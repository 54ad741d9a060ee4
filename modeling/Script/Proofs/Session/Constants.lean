import Script.Proofs.Evaluation.Growth
import Script.Proofs.Evaluation.Termination
import Script.Session

namespace Script.Session

/-- A session becomes another when sources are evaluated in it, one after the other and whatever
becomes of each, while the clock goes on. -/
inductive Becomes (first : Session) : Session → Prop
  | same : Becomes first first
  | eval {session : Session} (source : String) :
    Becomes first session → Becomes first (session.eval source).2
  | clock {session : Session} (clock : Clock) :
    Becomes first session → Becomes first { session with state.clock := clock }

/-- A source that can be read is evaluated on the state of the session, and the state it ends in
is the one of the session from then on. -/
theorem eval_of_parse {session : Session} {source : String} {program : Program}
    (h : Program.parse source = .ok program) :
    (session.eval source).2 = { session with
      state := Eval.final (Eval.program session.limit session.globals program) session.state } := by
  simp only [eval, h, Eval.final]
  cases Eval.program session.limit session.globals program session.state <;> rfl

theorem globals_eval (session : Session) (source : String) :
    (session.eval source).2.globals = session.globals := by
  cases h : Program.parse source with
  | error errors => simp only [eval, h]
  | ok program => rw [eval_of_parse h]

theorem grows_eval (session : Session) (source : String) :
    session.state.heap.Grows (session.eval source).2.state.heap := by
  cases h : Program.parse source with
  | error errors =>
    simp only [eval, h]
    exact .refl _
  | ok program =>
    rw [eval_of_parse h]
    exact Eval.stable_grows.program session.limit session.globals program session.state

namespace Becomes

variable {first session : Session}

theorem globals_eq (h : first.Becomes session) : session.globals = first.globals := by
  induction h with
  | same => rfl
  | eval source _ ih => rw [globals_eval, ih]
  | clock _ _ ih => exact ih

theorem grows (h : first.Becomes session) : first.state.heap.Grows session.state.heap := by
  induction h with
  | same => exact .refl _
  | eval source _ ih => exact ih.trans (grows_eval _ source)
  | clock _ _ ih => exact ih

/-- A global constant is looked up with its value ever after. -/
theorem lookup_eq (h : first.Becomes session) {name : String} {value : Value}
    (hglobals : first.globals.index < first.state.heap.scopes.size)
    (hconstant : (first.state.heap.scope first.globals).Fixes name value) :
    session.lookup name = .ok value := by
  have hkept := (h.grows.scope first.globals hglobals).same hconstant
  rw [lookup, h.globals_eq, Heap.lookup_of_get? hkept]

end Becomes

def predefined : List (String × Value) :=
  [("true", .boolean true), ("false", .boolean false), ("null", .null),
    ("print", .native ⟨0, "print", .print⟩), ("time", .native ⟨1, "time", .time⟩)]

theorem globals_start (limit : Nat) (sink : Sink) (clock : Clock) :
    (start limit sink clock).globals.index < (start limit sink clock).state.heap.scopes.size :=
  Nat.zero_lt_one

theorem fixes_start (limit : Nat) (sink : Sink) (clock : Clock) {name : String} {value : Value}
    (h : (name, value) ∈ predefined) :
    ((start limit sink clock).state.heap.scope (start limit sink clock).globals).Fixes
      name value := by
  change (Heap.empty.newGlobals.2.scope ⟨0⟩).Fixes name value
  simp only [predefined, List.mem_cons, List.not_mem_nil, or_false, Prod.mk.injEq] at h
  rcases h with ⟨rfl, rfl⟩ | ⟨rfl, rfl⟩ | ⟨rfl, rfl⟩ | ⟨rfl, rfl⟩ | ⟨rfl, rfl⟩
  all_goals exact ⟨by decide, rfl⟩

/-- In this session the source gets as far as a function declaration of its outermost level, which
gives this value to this name. -/
def DeclaresFunction (session : Session) (source name : String) (value : Value) : Prop :=
  ∃ (before after : List Stmt) (parameters : List String) (body : List Stmt) (last : Value)
    (s t : State),
    Program.parse source = .ok (before ++ .function name parameters body :: after) ∧
    Eval.program session.limit session.globals before session.state = .ok last s ∧
    Eval.stmt (Eval.caller session.limit) session.globals (.function name parameters body) s =
      .ok value t

/-- After a source that declares a function, the function is a global constant, even if the source
fails later on. -/
theorem DeclaresFunction.fixes_eval {session : Session} {source name : String} {value : Value}
    (h : session.DeclaresFunction source name value)
    (hglobals : session.globals.index < session.state.heap.scopes.size) :
    ((session.eval source).2.state.heap.scope session.globals).Fixes name value := by
  obtain ⟨before, after, parameters, body, last, s, t, hparse, hbefore, hfunction⟩ := h
  have hs : session.state.heap.Grows s.heap :=
    (Eval.stable_grows.program session.limit session.globals before).of_ok hbefore
  have ht : s.heap.Grows t.heap :=
    (Eval.stable_grows.stmt (Eval.stable_grows.caller session.limit) _ _).of_ok hfunction
  -- What comes behind the declaration, and may fail, only lets the scope grow.
  have hrest := Eval.stable_grows.program_rest hbefore hfunction after
  have hconstant := Eval.fixes_of_function (Nat.lt_of_lt_of_le hglobals hs.size) hfunction
  rw [eval_of_parse hparse]
  exact (hrest.scope _ (Nat.lt_of_lt_of_le hglobals (hs.trans ht).size)).fixes hconstant

theorem bindsConstants_newGlobals : Heap.empty.newGlobals.2.BindsConstants := by
  have hempty : Heap.empty.newStamp.2.newStamp.2.BindsConstants := fun _ => List.nil_subset _
  have hstart := hempty.newScope []
  unfold Heap.newGlobals
  simp only [List.foldl_cons, List.foldl_nil]
  exact ((((hstart.bind _ _ _ _).bind _ _ _ _).bind _ _ _ _).bind _ _ _ _).bind _ _ _ _

/-- In all states that evaluation comes to, constants are bound. -/
theorem bindsConstants_of_reached {s : State} (hs : s.Reached) : s.heap.BindsConstants := by
  induction hs with
  | new sink clock => exact bindsConstants_newGlobals
  | eval limit task _ _ ih =>
    exact (Task.keeps Eval.stable_grows task limit _).bindsConstants ih
  | meanwhile sink clock _ ih => exact ih

/-- Scopes only grow and constants never change. So what a session knows from its start, and every
function declared at its outermost level, is looked up with the same value ever after. -/
theorem constants_stay :
    (∀ (limit : Nat) (scope : ScopeId) (program : Program) (s : State),
      let after := (Eval.final (Eval.program limit scope program) s).heap
      (∀ id : ScopeId, id.index < s.heap.scopes.size →
        id.index < after.scopes.size ∧
        after.parent? id = s.heap.parent? id ∧
        (s.heap.scope id).names ⊆ (after.scope id).names ∧
        (∀ name ∈ (s.heap.scope id).constants, name ∈ (after.scope id).constants ∧
          ∀ value, (s.heap.scope id).bindings.get? name = some value →
            (after.scope id).bindings.get? name = some value) ∧
        ∀ name ∈ (s.heap.scope id).names, name ∉ (s.heap.scope id).constants →
          name ∉ (after.scope id).constants) ∧
      (s.heap.BindsConstants → after.BindsConstants)) ∧
    (∀ s : State, s.Reached → s.heap.BindsConstants) ∧
    ∀ (limit : Nat) (sink : Sink) (clock : Clock) (session : Session),
      (start limit sink clock).Becomes session →
      session.state.heap.BindsConstants ∧
      (∀ name value, (name, value) ∈ predefined → session.lookup name = .ok value) ∧
      ∀ source name value, session.DeclaresFunction source name value →
        ∀ later, (session.eval source).2.Becomes later → later.lookup name = .ok value := by
  refine ⟨?_, fun s hs => bindsConstants_of_reached hs, ?_⟩
  · intro limit scope program s after
    have hgrows : s.heap.Grows after := Eval.stable_grows.program limit scope program s
    refine ⟨fun id hid => ?_, hgrows.bindsConstants⟩
    have hscope := hgrows.scope id hid
    refine ⟨Nat.lt_of_lt_of_le hid hgrows.size, ?_, hscope.names, ?_, ?_⟩
    · rw [Heap.parent?, Heap.parent?, hscope.outer]
    · intro name hname
      exact ⟨hscope.constants hname, fun value hvalue => hscope.same ⟨hname, hvalue⟩⟩
    · intro name hname hnot hconstant
      exact hnot (hscope.changeable hname hconstant)
  · intro limit sink clock session hsession
    refine ⟨hsession.grows.bindsConstants bindsConstants_newGlobals, ?_, ?_⟩
    · intro name value hname
      exact hsession.lookup_eq (globals_start limit sink clock) (fixes_start limit sink clock hname)
    · intro source name value hdeclares later hlater
      have hglobals : session.globals.index < session.state.heap.scopes.size := by
        rw [hsession.globals_eq]
        exact Nat.lt_of_lt_of_le (globals_start limit sink clock) hsession.grows.size
      have hconstant := hdeclares.fixes_eval hglobals
      rw [← globals_eval session source] at hglobals hconstant
      exact hlater.lookup_eq (Nat.lt_of_lt_of_le hglobals (grows_eval session source).size)
        hconstant

/-- The first source fails behind its declaration and the second one fails as a whole. -/
theorem constants_stay_failing :
    let first := start 10 .unbounded (.still 0)
    let session := (first.eval "func f() \x7b null \x7d f = true").2
    let later := (session.eval "true = f").2
    let value := Value.function ⟨⟨2, "f", [], [.expr (.name "null")]⟩, ⟨0⟩⟩
    let heap := (Eval.final (Eval.program 0 ⟨0⟩ [.expr (.call (.name "f") [])]) later.state).heap
    first.DeclaresFunction "func f() \x7b null \x7d f = true" "f" value ∧
      later.lookup "f" = .ok value ∧ later.lookup "true" = .ok (.boolean true) ∧
      (later.state.heap.scope ⟨0⟩).names ⊆ (heap.scope ⟨0⟩).names := by
  intro first session later value heap
  have htokens : (Source.tokenize "func f() \x7b null \x7d f = true").toOption = some
      [.plain .funcWord "func" ⟨0, 4⟩, .plain .identifier "f" ⟨5, 6⟩, .plain .openParen "(" ⟨6, 7⟩,
        .plain .closeParen ")" ⟨7, 8⟩, .plain .openBrace "\x7b" ⟨9, 10⟩,
        .plain .identifier "null" ⟨11, 15⟩, .plain .closeBrace "\x7d" ⟨16, 17⟩,
        .plain .identifier "f" ⟨18, 19⟩, .plain .equals "=" ⟨20, 21⟩,
        .plain .identifier "true" ⟨22, 26⟩, .endOfFile 26] := by decide +kernel
  have hparse : Program.parse "func f() \x7b null \x7d f = true" =
      .ok ([] ++ .function "f" [] [.expr (.name "null")] ::
        [.expr (.assign (.name "f") (.name "true"))]) := by
    unfold Program.parse
    cases h : Source.tokenize "func f() \x7b null \x7d f = true" with
    | error errors =>
      rw [h] at htokens
      cases htokens
    | ok tokens =>
      rw [h] at htokens
      cases htokens
      rfl
  have hdeclares : first.DeclaresFunction "func f() \x7b null \x7d f = true" "f" value :=
    ⟨[], [.expr (.assign (.name "f") (.name "true"))], [], [.expr (.name "null")], .null, _, _,
      hparse, rfl, rfl⟩
  have hsession : first.Becomes later := .eval _ (.eval _ .same)
  have hsize : 0 < later.state.heap.scopes.size := hsession.grows.size
  obtain ⟨-, hpredefined, -⟩ := constants_stay.2.2 10 .unbounded (.still 0) later hsession
  obtain ⟨-, -, hnames, -⟩ :=
    (constants_stay.1 0 ⟨0⟩ [.expr (.call (.name "f") [])] later.state).1 ⟨0⟩ hsize
  refine ⟨hdeclares, ?_, ?_, hnames⟩
  · exact (constants_stay.2.2 10 .unbounded (.still 0) first .same).2.2 _ "f" value hdeclares later
      (.eval _ .same)
  · exact hpredefined "true" _ (by simp [predefined])

end Script.Session
