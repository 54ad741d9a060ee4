import Script.Proofs.Evaluation.Simulation

namespace Script

inductive Task where
  | expr (scope : ScopeId) (e : Expr)
  | stmt (scope : ScopeId) (st : Stmt)
  | program (scope : ScopeId) (p : Program)
  | call (scope : ScopeId) (callee : Value) (arguments : List Value)

namespace Task

def eval (limit : Nat) : Task → Eval Value
  | expr scope e => Eval.expr (Eval.caller limit) scope e
  | stmt scope st => Eval.stmt (Eval.caller limit) scope st
  | program scope p => Eval.program limit scope p
  | call scope callee arguments => Eval.callValue (Eval.caller limit) callee arguments scope

def control : Task → Control
  | expr scope e => .expr scope e
  | stmt scope st => .stmt scope st
  | program scope p => .stmts scope .null p
  | call scope callee arguments => .call scope callee arguments

def start (task : Task) (s : State) : Machine :=
  ⟨task.control, [], s⟩

def Fits (h : Heap) : Task → Prop
  | expr scope _ => h.Has (.scope scope)
  | stmt scope _ => h.Has (.scope scope)
  | program scope _ => h.Has (.scope scope)
  | call scope callee arguments =>
    h.Has (.scope scope) ∧ h.Carries callee ∧ ∀ v ∈ arguments, h.Carries v

variable {s : State} {task : Task}

theorem keeps {R : State → State → Prop} (hR : Eval.Stable R) (task : Task) (limit : Nat) :
    Eval.Keeps R (task.eval limit) := by
  have hcalls := hR.caller limit
  cases task with
  | expr scope e => exact hR.expr hcalls scope e
  | stmt scope st => exact hR.stmt hcalls scope st
  | program scope p => exact hR.program limit scope p
  | call scope callee arguments => exact hR.callValue hcalls callee arguments scope

theorem stays (limit : Nat) (hw : s.heap.WellFormed) (hfits : task.Fits s.heap) :
    Eval.Stays (.whole s.heap) s (task.eval limit) (Region.whole s.heap).Admits := by
  have hc := Region.confines_whole hw
  have hcalls : Eval.CallsStay (.whole s.heap) (Eval.caller limit) :=
    Eval.callsStay_function limit (limit + 1)
  cases task with
  | expr scope e => exact Eval.Inside.expr hcalls e s hc (.inl hfits)
  | stmt scope st => exact Eval.Inside.stmt hcalls st s hc (.inl hfits)
  | program scope p => exact Eval.Inside.program limit scope p s hc (.inl hfits)
  | call scope callee arguments =>
    obtain ⟨hscope, hcallee, harguments⟩ := hfits
    exact Eval.Inside.callValue hcalls hc (.inl hscope)
      (fun place hplace => .inl (hcallee place hplace))
      (fun v hv place hplace => .inl (harguments v hv place hplace))

theorem wellFormed_final (limit : Nat) (hw : s.heap.WellFormed) (hfits : task.Fits s.heap) :
    (Eval.final (task.eval limit) s).heap.WellFormed :=
  (stays limit hw hfits).moves.confines.wellFormed hw

theorem leads (limit : Nat) (hw : s.heap.WellFormed) (hfits : task.Fits s.heap) :
    Machine.Leads limit (task.start s) (Machine.settle .value [] (task.eval limit s)) := by
  have hrooted := Region.rooted_whole hw
  have hcalls := Machine.callsLead hrooted limit (limit + 1)
  -- There is more room than the limit, so whatever the counter says, the calls fit in.
  have hready : ∀ scope, s.heap.Has (.scope scope) →
      Machine.Ready (.whole s.heap) limit (limit + 1) scope s :=
    fun scope hscope => ⟨Region.confines_whole hw, .inl hscope, by omega⟩
  cases task with
  | expr scope e => exact (Machine.followsExpr hrooted hcalls e).leads s [] (hready scope hfits)
  | stmt scope st =>
    exact (Machine.follows_stmt hrooted hcalls scope st).leads s [] (hready scope hfits)
  | program scope p => exact Machine.leads_stmts hrooted hcalls p .null (hready scope hfits)
  | call scope callee arguments =>
    obtain ⟨hscope, hcallee, harguments⟩ := hfits
    exact Machine.leads_callValue hcalls (hready scope hscope)
      (fun place hplace => .inl (hcallee place hplace))
      fun v hv place hplace => .inl (harguments v hv place hplace)

end Task

namespace Machine

/-- A machine with nothing left to do rests. -/
theorem run_settle (limit n : Nat) (result : EStateM.Result RuntimeError State Value) :
    (settle .value [] result).run limit n = settle .value [] result := by
  induction n with
  | zero => rfl
  | succ n ih => cases result <;> exact ih

theorem outcome?_settle (result : EStateM.Result RuntimeError State Value) :
    (settle .value [] result).outcome? = some result := by
  cases result <;> rfl

end Machine

/-- With so many steps or more, the machine comes to the result of the task. -/
theorem Task.halts {s : State} {task : Task} (limit : Nat) (hw : s.heap.WellFormed)
    (hfits : task.Fits s.heap) :
    ∃ n, ∀ k, n ≤ k → ((task.start s).run limit k).outcome? = some (task.eval limit s) := by
  obtain ⟨n, hn⟩ := leads limit hw hfits
  refine ⟨n, ?_⟩
  intro k hk
  obtain ⟨more, rfl⟩ := Nat.exists_eq_add_of_le hk
  rw [Machine.run_add, hn, Machine.run_settle, Machine.outcome?_settle]

/-- States that evaluation comes to: a new one, and with each the one that any task ends in, however
it ends. In between, time goes on and the output may go elsewhere. -/
inductive State.Reached : State → Prop
  | new (sink : Sink) (clock : Clock) : Reached ⟨Heap.empty.newGlobals.2, 0, sink, clock⟩
  | eval {s : State} (limit : Nat) (task : Task) :
    Reached s → task.Fits s.heap → Reached (Eval.final (task.eval limit) s)
  | meanwhile {s : State} (sink : Sink) (clock : Clock) :
    Reached s → Reached { s with sink := sink, clock := clock }

theorem State.Reached.wellFormed {s : State} (hs : s.Reached) : s.heap.WellFormed := by
  induction hs with
  | new sink clock => exact Heap.wellFormed_empty.newGlobals
  | eval limit task _ hfits ih => exact task.wellFormed_final limit ih hfits
  | meanwhile sink clock _ ih => exact ih

/-- Every program comes to an end, with a value or an error, in every scope of every state that
evaluation comes to and under every limit on calls. All that is asked of the state is that it is
well-formed: containers may lie in each other, functions may be bound anywhere and call each other,
and any number of calls may be counted already. -/
theorem program_halts :
    (∀ s : State, s.Reached → s.heap.WellFormed) ∧
    ∀ (limit : Nat) (scope : ScopeId) (p : Program) (s : State),
      s.heap.WellFormed → s.heap.Has (.scope scope) →
      ∃ n, ∀ k, n ≤ k → (Machine.run limit k ⟨.stmts scope .null p, [], s⟩).outcome? =
        some (Eval.program limit scope p s) := by
  refine ⟨fun s hs => hs.wellFormed, ?_⟩
  intro limit scope p s hw hscope
  have hfits : (Task.program scope p).Fits s.heap := hscope
  exact Task.halts limit hw hfits

/-- A function that calls what it is given is given itself. -/
theorem program_halts_self_applied :
    let s : State := ⟨Heap.empty.newGlobals.2, 0, .unbounded, .still 0⟩
    let p : Program := [.function "f" ["g"] [.expr (.call (.name "g") [.name "g"])],
      .expr (.call (.name "f") [.name "f"])]
    s.Reached ∧ s.heap.WellFormed ∧ s.heap.Has (.scope ⟨0⟩) ∧
      (∃ t, Eval.program 3 ⟨0⟩ p s = .error (.recursionLimit 3) t) ∧
      ∃ n, ∀ k, n ≤ k → (Machine.run 3 k ⟨.stmts ⟨0⟩ .null p, [], s⟩).outcome? =
        some (Eval.program 3 ⟨0⟩ p s) := by
  intro s p
  have hreached : s.Reached := .new .unbounded (.still 0)
  have hw : s.heap.WellFormed := program_halts.1 s hreached
  have hscope : s.heap.Has (.scope ⟨0⟩) := Nat.zero_lt_one
  exact ⟨hreached, hw, hscope, ⟨_, rfl⟩, program_halts.2 3 ⟨0⟩ p s hw hscope⟩

end Script
