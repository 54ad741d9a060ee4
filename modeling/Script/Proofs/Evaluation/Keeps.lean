import Script.Proofs.Evaluation.Equations

namespace Script.Eval

variable {α β : Type} {R : State → State → Prop}

def final {σ : Type} (m : EStateM RuntimeError σ α) (s : σ) : σ :=
  match m s with
  | .ok _ t => t
  | .error _ t => t

@[simp] theorem final_onHeap (action : EStateM RuntimeError Heap α) (s : State) :
    final (onHeap action) s = { s with heap := final action s.heap } := by
  simp only [final, onHeap]
  cases action s.heap <;> rfl

theorem heap_printLine (line : String) (s : State) :
    (final (printLine line) s).heap = s.heap := by
  simp only [final, printLine]
  obtain ⟨answer, sink⟩ := s.sink.writeLine line
  cases answer <;> rfl

theorem heap_counted (call : Eval α) (s : State) :
    (final (counted call) s).heap = (final call { s with depth := s.depth + 1 }).heap := by
  simp only [final, counted]
  cases call { s with depth := s.depth + 1 } <;> rfl

theorem sink_counted (call : Eval α) (s : State) :
    (final (counted call) s).sink = (final call { s with depth := s.depth + 1 }).sink := by
  simp only [final, counted]
  cases call { s with depth := s.depth + 1 } <;> rfl

/-- An evaluation keeps a relation if the relation joins the state before to the state after. -/
def Keeps (R : State → State → Prop) (m : Eval α) : Prop :=
  ∀ s, R s (final m s)

theorem final_of_ok {m : Eval α} {s t : State} {a : α} (h : m s = .ok a t) : final m s = t := by
  rw [final, h]

theorem final_of_error {m : Eval α} {s t : State} {e : RuntimeError} (h : m s = .error e t) :
    final m s = t := by
  rw [final, h]

theorem Keeps.of_ok {m : Eval α} {s t : State} {a : α} (hm : Keeps R m) (h : m s = .ok a t) :
    R s t := by
  have hs := hm s
  rwa [final_of_ok h] at hs

theorem Keeps.of_error {m : Eval α} {s t : State} {e : RuntimeError} (hm : Keeps R m)
    (h : m s = .error e t) : R s t := by
  have hs := hm s
  rwa [final_of_error h] at hs

theorem final_bind_of_ok {m : Eval α} {f : α → Eval β} {s t : State} {a : α} (h : m s = .ok a t) :
    final (m >>= f) s = final (f a) t := by
  rw [final, bind_of_ok h]
  rfl

theorem final_bind_of_error {m : Eval α} {f : α → Eval β} {s t : State} {e : RuntimeError}
    (h : m s = .error e t) : final (m >>= f) s = t := by
  exact final_of_error (bind_of_error h)

def CallsKeep (R : State → State → Prop) (call : Caller) : Prop :=
  ∀ closure arguments, Keeps R (call closure arguments)

structure Composes (R : State → State → Prop) : Prop where
  refl : ∀ s, R s s
  trans : ∀ {s t u}, R s t → R t u → R s u

/-- A relation between states that each single step of an evaluation keeps. -/
structure Stable (R : State → State → Prop) : Prop extends Composes R where
  newChild : ∀ parent, Keeps R (newChild parent)
  newArray : ∀ items, Keeps R (newArray items)
  newObject : ∀ entries, Keeps R (newObject entries)
  newStamp : Keeps R newStamp
  onDeclare : ∀ scope name value constant, Keeps R (onHeap (Heap.declare scope name value constant))
  onAssign : ∀ scope name value, Keeps R (onHeap (Heap.assign scope name value))
  onWrite : ∀ (slot : Slot) value, Keeps R (onHeap (slot.write value))
  printLine : ∀ line, Keeps R (printLine line)
  readClock : Keeps R readClock
  counted : ∀ {call : Eval Value}, Keeps R call → Keeps R (counted call)

namespace Composes

theorem pure (hR : Composes R) (a : α) : Keeps R (Pure.pure a : Eval α) :=
  fun s => hR.refl s

theorem throw (hR : Composes R) (e : RuntimeError) : Keeps R (throw e : Eval α) :=
  fun s => hR.refl s

theorem bind (hR : Composes R) {m : Eval α} {f : α → Eval β} (hm : Keeps R m)
    (hf : ∀ a, Keeps R (f a)) : Keeps R (m >>= f) := by
  intro s
  cases h : m s with
  | ok a t =>
    rw [final_bind_of_ok h]
    exact hR.trans (hm.of_ok h) (hf a t)
  | error e t =>
    rw [final_bind_of_error h]
    exact hm.of_error h

theorem get (hR : Composes R) : Keeps R (MonadState.get : Eval State) :=
  fun s => hR.refl s

theorem readHeap (hR : Composes R) (f : Heap → α) : Keeps R (Eval.readHeap f) :=
  fun s => hR.refl s

theorem lookup (hR : Composes R) (scope : ScopeId) (name : String) :
    Keeps R (Eval.lookup scope name) := by
  apply hR.bind (hR.readHeap _)
  intro answer
  cases answer with
  | ok value => exact hR.pure value
  | error e => exact hR.throw e

theorem slot (hR : Composes R) (container key : Value) : Keeps R (Eval.slot container key) := by
  unfold Eval.slot
  split
  · exact hR.pure _
  · exact hR.throw _
  · exact hR.pure _
  · exact hR.pure _
  · exact hR.throw _
  · exact hR.throw _

theorem memberKey (hR : Composes R) (property : Expr) (computed : Bool) {evaluated : Eval Value}
    (h : Keeps R evaluated) : Keeps R (Eval.memberKey property computed evaluated) := by
  unfold Eval.memberKey
  split
  · exact hR.pure _
  · exact h

theorem read (hR : Composes R) (slot : Slot) : Keeps R (slot.access none) :=
  hR.readHeap slot.read

/-- To find a member is no step of its own. What is done at its slot is up to the access. -/
theorem member (hR : Composes R) {container key : Eval Value} {new? : Option Value}
    (hcontainer : Keeps R container) (hkey : Keeps R key)
    (haccess : ∀ place : Slot, Keeps R (place.access new?)) (key? : Option String) :
    Keeps R (Eval.member container key new? key?) := by
  unfold Eval.member
  apply hR.bind hcontainer
  intro owner
  dsimp only
  split
  · exact hR.bind (hR.pure _) haccess
  · exact hR.bind hkey fun k => hR.bind (hR.slot _ k) haccess
  · exact hR.bind hkey fun k => hR.bind (hR.slot _ k) haccess
  · exact hR.bind (hR.throw _) haccess

end Composes

namespace Stable

theorem declare (hR : Stable R) (scope : ScopeId) (name : String) (value : Value)
    (constant : Bool) : Keeps R (Eval.declare scope name value constant) :=
  hR.bind (hR.onDeclare scope name value constant) fun _ => hR.pure value

theorem assign (hR : Stable R) (scope : ScopeId) (name : String) (value : Value) :
    Keeps R (Eval.assign scope name value) :=
  hR.bind (hR.onAssign scope name value) fun _ => hR.pure value

theorem access (hR : Stable R) (slot : Slot) (new? : Option Value) :
    Keeps R (slot.access new?) := by
  cases new? with
  | none => exact hR.read slot
  | some value => exact hR.bind (hR.onWrite slot value) fun _ => hR.pure value

theorem member (hR : Stable R) {container key : Eval Value} (hcontainer : Keeps R container)
    (hkey : Keeps R key) (new? : Option Value) (key? : Option String) :
    Keeps R (Eval.member container key new? key?) :=
  hR.toComposes.member hcontainer hkey (fun place => hR.access place new?) key?

theorem callNative (hR : Stable R) (function : Native) (arguments : List Value)
    (scope : ScopeId) : Keeps R (Eval.callNative function arguments scope) := by
  unfold Eval.callNative
  split
  · exact hR.bind (hR.readHeap _) fun line => hR.bind (hR.printLine line) fun _ => hR.pure _
  · exact hR.bind hR.readClock fun _ => hR.pure _
  · exact hR.newArray _
  · exact hR.lookup _ _

section Caller

variable {call : Caller}

theorem callValue (hR : Stable R) (hcall : CallsKeep R call) (callee : Value)
    (arguments : List Value) (scope : ScopeId) :
    Keeps R (Eval.callValue call callee arguments scope) := by
  cases callee with
  | native function => exact hR.callNative function arguments scope
  | function closure => exact hcall closure arguments
  | _ => exact hR.throw _

mutual

/-- An expression keeps what the functions it calls keep. The cases are those of `Eval.expr`. -/
theorem expr (hR : Stable R) (hcall : CallsKeep R call) (scope : ScopeId) :
    ∀ e, Keeps R (Eval.expr call scope e)
  | .number _ => hR.pure _
  | .string _ => hR.pure _
  | .name name => hR.lookup scope name
  | .binary _ left right =>
    hR.bind (expr hR hcall scope left) fun _ =>
      hR.bind (expr hR hcall scope right) fun _ => hR.pure _
  | .assign (.name name) value =>
    hR.bind (expr hR hcall scope value) fun v => hR.assign scope name v
  | .assign (.member object property computed) value =>
    hR.bind (expr hR hcall scope value) fun _ =>
      hR.member (expr hR hcall scope object)
        (hR.memberKey property computed (expr hR hcall scope property)) _ _
  | .assign (.number _) _ => hR.throw _
  | .assign (.string _) _ => hR.throw _
  | .assign (.binary _ _ _) _ => hR.throw _
  | .assign (.assign _ _) _ => hR.throw _
  | .assign (.object _) _ => hR.throw _
  | .assign (.array _) _ => hR.throw _
  | .assign (.call _ _) _ => hR.throw _
  | .object ps => hR.bind (properties hR hcall scope ps) fun entries => hR.newObject entries
  | .array es => hR.bind (exprs hR hcall scope es) fun items => hR.newArray items
  | .member object property computed =>
    hR.member (expr hR hcall scope object)
      (hR.memberKey property computed (expr hR hcall scope property)) _ _
  | .call callee arguments =>
    hR.bind (exprs hR hcall scope arguments) fun values =>
      hR.bind (expr hR hcall scope callee) fun f => hR.callValue hcall f values scope

theorem exprs (hR : Stable R) (hcall : CallsKeep R call) (scope : ScopeId) :
    ∀ es, Keeps R (Eval.exprs call scope es)
  | [] => hR.pure _
  | e :: es =>
    hR.bind (expr hR hcall scope e) fun _ =>
      hR.bind (exprs hR hcall scope es) fun _ => hR.pure _

theorem properties (hR : Stable R) (hcall : CallsKeep R call) (scope : ScopeId) :
    ∀ ps, Keeps R (Eval.properties call scope ps)
  | [] => hR.pure _
  | p :: ps =>
    hR.bind (property hR hcall scope p) fun _ =>
      hR.bind (properties hR hcall scope ps) fun _ => hR.pure _

theorem property (hR : Stable R) (hcall : CallsKeep R call) (scope : ScopeId) :
    ∀ p, Keeps R (Eval.property call scope p)
  | .copied key => hR.bind (hR.lookup scope key) fun _ => hR.pure _
  | .given _ value => hR.bind (expr hR hcall scope value) fun _ => hR.pure _

end

theorem stmt (hR : Stable R) (hcall : CallsKeep R call) (scope : ScopeId) (s : Stmt) :
    Keeps R (Eval.stmt call scope s) := by
  unfold Eval.stmt
  split
  · exact hR.declare _ _ _ _
  · exact hR.bind (hR.expr hcall scope _) fun _ => hR.declare _ _ _ _
  · exact hR.bind hR.newStamp fun _ => hR.declare _ _ _ _
  · exact hR.expr hcall scope _

/-- Statements keep the relation whatever the value of those before them was. -/
theorem stmts (hR : Stable R) (hcall : CallsKeep R call) (scope : ScopeId) (stmts : List Stmt)
    (value : Value) : Keeps R (stmts.foldlM (fun _ s => Eval.stmt call scope s) value) := by
  induction stmts generalizing value with
  | nil => exact hR.pure value
  | cons s stmts ih => exact hR.bind (hR.stmt hcall scope s) ih

theorem body (hR : Stable R) (hcall : CallsKeep R call) (scope : ScopeId) (stmts : List Stmt) :
    Keeps R (Eval.body call scope stmts) :=
  hR.stmts hcall scope stmts .null

end Caller

theorem parameters (hR : Stable R) (scope : ScopeId) (names : List String)
    (arguments : List Value) : Keeps R (Eval.parameters scope names arguments) := by
  induction names generalizing arguments with
  | nil => exact hR.pure ()
  | cons name names ih => exact hR.bind (hR.declare _ _ _ _) fun _ => ih _

/-- Calls keep what single steps keep, however deep they go: the induction is on the room that is
left for the calls inside. -/
theorem function (hR : Stable R) (limit room : Nat) :
    CallsKeep R (Eval.function limit room) := by
  induction room with
  | zero => exact fun _ _ => hR.throw _
  | succ room ih =>
    intro closure arguments
    have hrun : Keeps R (do
        let scope ← Eval.newChild closure.captured
        Eval.parameters scope closure.declaration.parameters arguments
        Eval.counted (Eval.body (Eval.function limit room) scope closure.declaration.body)) :=
      hR.bind (hR.newChild _) fun scope =>
        hR.bind (hR.parameters scope _ _) fun _ => hR.counted (hR.body ih scope _)
    unfold Eval.function
    apply hR.bind hR.get
    intro s
    split
    · exact hR.bind (hR.throw _) fun _ => hrun
    · exact hrun

theorem caller (hR : Stable R) (limit : Nat) : CallsKeep R (Eval.caller limit) :=
  hR.function limit (limit + 1)

/-- A whole program keeps whatever single steps keep. -/
theorem program (hR : Stable R) (limit : Nat) (scope : ScopeId) (p : Program) :
    Keeps R (Eval.program limit scope p) :=
  hR.body (hR.caller limit) scope p

/-- From a statement of a program on, the rest of the program keeps what single steps keep. -/
theorem program_rest (hR : Stable R) {limit : Nat} {scope : ScopeId} {before : List Stmt}
    {statement : Stmt} {s t u : State} {last value : Value}
    (hbefore : Eval.program limit scope before s = .ok last t)
    (hstatement : Eval.stmt (Eval.caller limit) scope statement t = .ok value u)
    (after : List Stmt) :
    R u (final (Eval.program limit scope (before ++ statement :: after)) s) := by
  unfold Eval.program Eval.body at *
  rw [List.foldlM_append, final_bind_of_ok hbefore, List.foldlM_cons,
    final_bind_of_ok hstatement]
  exact hR.stmts (hR.caller limit) scope after value u

end Stable
end Script.Eval
