import Script.Proofs.Evaluation.Keeps

namespace Script.Eval

variable {α β : Type}

/-- How two runs are compared. While they go together their states are alike. When they part, the
first one has failed for a reason of its own, and the second one goes on. -/
structure Comparison where
  alike : State → State → Prop
  parted : RuntimeError → State → State → Prop

inductive Ends (c : Comparison) :
    EStateM.Result RuntimeError State α → EStateM.Result RuntimeError State α → Prop
  | ok {a : α} {t t' : State} : c.alike t t' → Ends c (.ok a t) (.ok a t')
  | error {e : RuntimeError} {t t' : State} : c.alike t t' → Ends c (.error e t) (.error e t')
  | passed {e : RuntimeError} {a : α} {t t' : State} :
    c.parted e t t' → Ends c (.error e t) (.ok a t')
  | failed {e e' : RuntimeError} {t t' : State} :
    c.parted e t t' → Ends c (.error e t) (.error e' t')

theorem Ends.of_parted {c : Comparison} {m : Eval α} {e : RuntimeError} {t s : State}
    (h : c.parted e t (final m s)) : Ends c (.error e t) (m s) := by
  unfold final at h
  cases hm : m s with
  | ok a u =>
    rw [hm] at h
    exact .passed h
  | error e' u =>
    rw [hm] at h
    exact .failed h

def endIn (t : State) :
    EStateM.Result RuntimeError State α → EStateM.Result RuntimeError State α
  | .ok a _ => .ok a t
  | .error e _ => .error e t

theorem Ends.alike_or_parted {c : Comparison} {m : Eval α} {s : State}
    {result : EStateM.Result RuntimeError State α} (h : Ends c result (m s)) :
    (∃ t, c.alike t (final m s) ∧ result = endIn t (m s)) ∨
      ∃ e t, c.parted e t (final m s) ∧ result = .error e t := by
  unfold final
  generalize m s = second at h
  cases h with
  | ok halike => exact .inl ⟨_, halike, rfl⟩
  | error halike => exact .inl ⟨_, halike, rfl⟩
  | passed hparted => exact .inr ⟨_, _, hparted, rfl⟩
  | failed hparted => exact .inr ⟨_, _, hparted, rfl⟩

/-- Two evaluations go together: from states alike they end alike, or else they part. Runs that
have parted stay so, whatever the second one does. -/
structure Together (c : Comparison) (m m' : Eval α) : Prop where
  ends : ∀ s s', c.alike s s' → Ends c (m s) (m' s')
  goesOn : ∀ e s, Keeps (fun t u => c.parted e s t → c.parted e s u) m'

structure Comparison.Lawful (c : Comparison) : Prop where
  heap : ∀ {s s'}, c.alike s s' → s'.heap = s.heap
  depth : ∀ {s s'}, c.alike s s' → s'.depth = s.depth
  clock : ∀ {s s'}, c.alike s s' → s'.clock = s.clock
  withHeap : ∀ {s s'}, c.alike s s' → ∀ h, c.alike { s with heap := h } { s' with heap := h }
  withDepth : ∀ {s s'}, c.alike s s' → ∀ d, c.alike { s with depth := d } { s' with depth := d }
  withClock : ∀ {s s'}, c.alike s s' → ∀ k, c.alike { s with clock := k } { s' with clock := k }
  partedDepth : ∀ {e s s'}, c.parted e s s' → ∀ d d',
    c.parted e { s with depth := d } { s' with depth := d' }
  goesOn : ∀ e s, Stable fun t u => c.parted e s t → c.parted e s u
  printLine : ∀ {s s'} line, c.alike s s' → Ends c (printLine line s) (printLine line s')

def CallsTogether (c : Comparison) (call call' : Caller) : Prop :=
  ∀ closure arguments, Together c (call closure arguments) (call' closure arguments)

namespace Comparison.Lawful

variable {c : Comparison}

theorem pure (hc : c.Lawful) (a : α) : Together c (Pure.pure a : Eval α) (Pure.pure a) :=
  ⟨fun _ _ h => .ok h, fun e s => (hc.goesOn e s).pure a⟩

theorem throw (hc : c.Lawful) (e : RuntimeError) : Together c (throw e : Eval α) (throw e) :=
  ⟨fun _ _ h => .error h, fun e' s => (hc.goesOn e' s).throw e⟩

theorem bind (hc : c.Lawful) {m m' : Eval α} {f f' : α → Eval β} (hm : Together c m m')
    (hf : ∀ a, Together c (f a) (f' a)) : Together c (m >>= f) (m' >>= f') := by
  refine ⟨?_, fun e s => (hc.goesOn e s).bind (hm.goesOn e s) fun a => (hf a).goesOn e s⟩
  intro s s' h
  have hends := hm.ends s s' h
  cases hms : m s with
  | ok a t =>
    rw [bind_of_ok hms]
    cases hms' : m' s' with
    | ok a' t' =>
      rw [bind_of_ok hms']
      rw [hms, hms'] at hends
      cases hends with
      | ok halike => exact (hf a).ends t t' halike
    | error e' t' =>
      rw [hms, hms'] at hends
      cases hends
  | error e t =>
    rw [bind_of_error hms]
    cases hms' : m' s' with
    | ok a' t' =>
      rw [bind_of_ok hms']
      rw [hms, hms'] at hends
      cases hends with
      -- The second run goes on alone, with whatever comes next.
      | passed hparted => exact .of_parted ((hf a').goesOn e t t' hparted)
    | error e' t' =>
      rw [bind_of_error hms']
      rw [hms, hms'] at hends
      cases hends with
      | error halike => exact .error halike
      | failed hparted => exact .failed hparted

theorem readHeap (hc : c.Lawful) (f : Heap → α) :
    Together c (Eval.readHeap f) (Eval.readHeap f) := by
  refine ⟨?_, fun e s => (hc.goesOn e s).readHeap f⟩
  intro s s' h
  show Ends c (.ok (f s.heap) s) (.ok (f s'.heap) s')
  rw [hc.heap h]
  exact .ok h

/-- On the same heap the same is done to it. -/
theorem onHeap (hc : c.Lawful) (action : EStateM RuntimeError Heap α)
    (hkeeps : ∀ e s, Keeps (fun t u => c.parted e s t → c.parted e s u) (Eval.onHeap action)) :
    Together c (Eval.onHeap action) (Eval.onHeap action) := by
  refine ⟨?_, hkeeps⟩
  intro s s' h
  unfold Eval.onHeap
  simp only [hc.heap h]
  cases action s.heap with
  | ok a heap => exact .ok (hc.withHeap h heap)
  | error e heap => exact .error (hc.withHeap h heap)

theorem lookup (hc : c.Lawful) (scope : ScopeId) (name : String) :
    Together c (Eval.lookup scope name) (Eval.lookup scope name) := by
  apply hc.bind (hc.readHeap _)
  intro answer
  cases answer with
  | ok value => exact hc.pure value
  | error e => exact hc.throw e

theorem newChild (hc : c.Lawful) (parent : ScopeId) :
    Together c (Eval.newChild parent) (Eval.newChild parent) :=
  hc.onHeap _ fun e s => (hc.goesOn e s).newChild parent

theorem newArray (hc : c.Lawful) (items : List Value) :
    Together c (Eval.newArray items) (Eval.newArray items) :=
  hc.onHeap _ fun e s => (hc.goesOn e s).newArray items

theorem newObject (hc : c.Lawful) (entries : List (String × Value)) :
    Together c (Eval.newObject entries) (Eval.newObject entries) :=
  hc.onHeap _ fun e s => (hc.goesOn e s).newObject entries

theorem newStamp (hc : c.Lawful) : Together c Eval.newStamp Eval.newStamp :=
  hc.onHeap _ fun e s => (hc.goesOn e s).newStamp

theorem declare (hc : c.Lawful) (scope : ScopeId) (name : String) (value : Value)
    (constant : Bool) :
    Together c (Eval.declare scope name value constant) (Eval.declare scope name value constant) :=
  hc.bind (hc.onHeap _ fun e s => (hc.goesOn e s).onDeclare scope name value constant) fun _ =>
    hc.pure value

theorem assign (hc : c.Lawful) (scope : ScopeId) (name : String) (value : Value) :
    Together c (Eval.assign scope name value) (Eval.assign scope name value) :=
  hc.bind (hc.onHeap _ fun e s => (hc.goesOn e s).onAssign scope name value) fun _ => hc.pure value

theorem slot (hc : c.Lawful) (container key : Value) :
    Together c (Eval.slot container key) (Eval.slot container key) := by
  unfold Eval.slot
  split
  · exact hc.pure _
  · exact hc.throw _
  · exact hc.pure _
  · exact hc.pure _
  · exact hc.throw _
  · exact hc.throw _

theorem access (hc : c.Lawful) (slot : Slot) (new? : Option Value) :
    Together c (slot.access new?) (slot.access new?) := by
  cases new? with
  | none => exact hc.readHeap slot.read
  | some value =>
    exact hc.bind (hc.onHeap _ fun e s => (hc.goesOn e s).onWrite slot value) fun _ => hc.pure value

theorem readClock (hc : c.Lawful) : Together c Eval.readClock Eval.readClock := by
  refine ⟨?_, fun e s => (hc.goesOn e s).readClock⟩
  intro s s' h
  show Ends c (.ok s.clock.now { s with clock := s.clock.next })
    (.ok s'.clock.now { s' with clock := s'.clock.next })
  rw [hc.clock h]
  exact .ok (hc.withClock h _)

theorem callNative (hc : c.Lawful) (function : Native) (arguments : List Value)
    (scope : ScopeId) :
    Together c (Eval.callNative function arguments scope)
      (Eval.callNative function arguments scope) := by
  unfold Eval.callNative
  split
  · apply hc.bind (hc.readHeap _)
    intro line
    apply hc.bind ⟨fun s s' h => hc.printLine line h, fun e s => (hc.goesOn e s).printLine line⟩
    intro _
    exact hc.pure _
  · exact hc.bind hc.readClock fun _ => hc.pure _
  · exact hc.newArray arguments
  · exact hc.lookup scope _

theorem member (hc : c.Lawful) {container container' key key' : Eval Value}
    (hcontainer : Together c container container') (hkey : Together c key key')
    (new? : Option Value) :
    Together c (Eval.member container key new? none) (Eval.member container' key' new? none) := by
  rw [member_eq, member_eq]
  apply hc.bind hcontainer
  intro owner
  split
  · apply hc.bind hkey
    intro k
    apply hc.bind (hc.slot owner k)
    intro place
    exact hc.access place new?
  · exact hc.throw _

theorem memberKey (hc : c.Lawful) (property : Expr) (computed : Bool)
    {evaluated evaluated' : Eval Value} (h : Together c evaluated evaluated') :
    Together c (Eval.memberKey property computed evaluated)
      (Eval.memberKey property computed evaluated') := by
  unfold Eval.memberKey
  split
  · exact hc.pure _
  · exact h

theorem leave (hc : c.Lawful) {r r' : EStateM.Result RuntimeError State α} (h : Ends c r r') :
    Ends c (leave r) (leave r') := by
  have hdown : ∀ {t t' : State}, c.alike t t' →
      c.alike { t with depth := t.depth - 1 } { t' with depth := t'.depth - 1 } := by
    intro t t' halike
    rw [hc.depth halike]
    exact hc.withDepth halike _
  cases h with
  | ok halike => exact .ok (hdown halike)
  | error halike => exact .error (hdown halike)
  | passed hparted => exact .passed (hc.partedDepth hparted _ _)
  | failed hparted => exact .failed (hc.partedDepth hparted _ _)

theorem counted (hc : c.Lawful) {call call' : Eval Value} (h : Together c call call') :
    Together c (Eval.counted call) (Eval.counted call') := by
  refine ⟨?_, fun e s => (hc.goesOn e s).counted (h.goesOn e s)⟩
  intro s s' halike
  rw [counted_eq, counted_eq, hc.depth halike]
  exact hc.leave (h.ends _ _ (hc.withDepth halike (s.depth + 1)))

section Callers

variable {call call' : Caller}

theorem callValue (hc : c.Lawful) (hcall : CallsTogether c call call') (callee : Value)
    (arguments : List Value) (scope : ScopeId) :
    Together c (Eval.callValue call callee arguments scope)
      (Eval.callValue call' callee arguments scope) := by
  cases callee with
  | native function => exact hc.callNative function arguments scope
  | function closure => exact hcall closure arguments
  | _ => exact hc.throw _

mutual

/-- The cases are those of `Eval.expr`. -/
theorem expr (hc : c.Lawful) (hcall : CallsTogether c call call') (scope : ScopeId) :
    ∀ e, Together c (Eval.expr call scope e) (Eval.expr call' scope e)
  | .number _ => hc.pure _
  | .string _ => hc.pure _
  | .name name => hc.lookup scope name
  | .binary _ left right =>
    hc.bind (expr hc hcall scope left) fun _ =>
      hc.bind (expr hc hcall scope right) fun _ => hc.pure _
  | .assign (.name name) value =>
    hc.bind (expr hc hcall scope value) fun v => hc.assign scope name v
  | .assign (.member object property computed) value =>
    hc.bind (expr hc hcall scope value) fun _ =>
      hc.member (expr hc hcall scope object)
        (hc.memberKey property computed (expr hc hcall scope property)) _
  | .assign (.number _) _ => hc.throw _
  | .assign (.string _) _ => hc.throw _
  | .assign (.binary _ _ _) _ => hc.throw _
  | .assign (.assign _ _) _ => hc.throw _
  | .assign (.object _) _ => hc.throw _
  | .assign (.array _) _ => hc.throw _
  | .assign (.call _ _) _ => hc.throw _
  | .object ps => hc.bind (properties hc hcall scope ps) fun entries => hc.newObject entries
  | .array es => hc.bind (exprs hc hcall scope es) fun items => hc.newArray items
  | .member object property computed =>
    hc.member (expr hc hcall scope object)
      (hc.memberKey property computed (expr hc hcall scope property)) _
  | .call callee arguments =>
    hc.bind (exprs hc hcall scope arguments) fun values =>
      hc.bind (expr hc hcall scope callee) fun f => hc.callValue hcall f values scope

theorem exprs (hc : c.Lawful) (hcall : CallsTogether c call call') (scope : ScopeId) :
    ∀ es, Together c (Eval.exprs call scope es) (Eval.exprs call' scope es)
  | [] => hc.pure _
  | e :: es =>
    hc.bind (expr hc hcall scope e) fun _ =>
      hc.bind (exprs hc hcall scope es) fun _ => hc.pure _

theorem properties (hc : c.Lawful) (hcall : CallsTogether c call call') (scope : ScopeId) :
    ∀ ps, Together c (Eval.properties call scope ps) (Eval.properties call' scope ps)
  | [] => hc.pure _
  | p :: ps =>
    hc.bind (property hc hcall scope p) fun _ =>
      hc.bind (properties hc hcall scope ps) fun _ => hc.pure _

theorem property (hc : c.Lawful) (hcall : CallsTogether c call call') (scope : ScopeId) :
    ∀ p, Together c (Eval.property call scope p) (Eval.property call' scope p)
  | .copied key => hc.bind (hc.lookup scope key) fun _ => hc.pure _
  | .given _ value => hc.bind (expr hc hcall scope value) fun _ => hc.pure _

end

theorem stmt (hc : c.Lawful) (hcall : CallsTogether c call call') (scope : ScopeId) (s : Stmt) :
    Together c (Eval.stmt call scope s) (Eval.stmt call' scope s) := by
  unfold Eval.stmt
  split
  · exact hc.declare _ _ _ _
  · exact hc.bind (hc.expr hcall scope _) fun _ => hc.declare _ _ _ _
  · exact hc.bind hc.newStamp fun _ => hc.declare _ _ _ _
  · exact hc.expr hcall scope _

theorem body (hc : c.Lawful) (hcall : CallsTogether c call call') (scope : ScopeId)
    (stmts : List Stmt) :
    Together c (Eval.body call scope stmts) (Eval.body call' scope stmts) := by
  unfold Eval.body
  generalize Value.null = value
  induction stmts generalizing value with
  | nil => exact hc.pure value
  | cons s stmts ih => exact hc.bind (hc.stmt hcall scope s) ih

end Callers

theorem parameters (hc : c.Lawful) (scope : ScopeId) (names : List String)
    (arguments : List Value) :
    Together c (Eval.parameters scope names arguments) (Eval.parameters scope names arguments) := by
  induction names generalizing arguments with
  | nil => exact hc.pure ()
  | cons name names ih => exact hc.bind (hc.declare _ _ _ _) fun _ => ih _

/-- Under one limit calls go together: the states let them in alike, and the induction is on the
room that is left for the calls inside. -/
theorem function (hc : c.Lawful) (limit room : Nat) :
    CallsTogether c (Eval.function limit room) (Eval.function limit room) := by
  induction room with
  | zero => exact fun _ _ => hc.throw _
  | succ room ih =>
    intro closure arguments
    have hrun := hc.bind (hc.newChild closure.captured) fun scope =>
      hc.bind (hc.parameters scope closure.declaration.parameters arguments) fun _ =>
        hc.counted (hc.body ih scope closure.declaration.body)
    refine ⟨?_, fun e s => (hc.goesOn e s).function limit (room + 1) closure arguments⟩
    intro s s' halike
    rw [function_succ, function_succ, hc.depth halike]
    split
    · exact .error halike
    · exact hrun.ends s s' halike

theorem program (hc : c.Lawful) (limit : Nat) (scope : ScopeId) (p : Program) :
    Together c (Eval.program limit scope p) (Eval.program limit scope p) :=
  hc.body (hc.function limit (limit + 1)) scope p

end Comparison.Lawful
end Script.Eval
