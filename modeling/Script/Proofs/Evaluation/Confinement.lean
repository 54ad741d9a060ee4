import Script.Proofs.Evaluation.Region

namespace Script

theorem Operator.place?_apply (operator : Operator) (x y : Value) :
    (operator.apply x y).place? = none := by
  unfold apply
  split
  · cases operator <;> rfl
  · rfl

namespace Eval

variable {α β : Type} {r : Region} {s : State} {fit : Heap → α → Prop} {fit' : Heap → β → Prop}

/-- From this state on, an evaluation moves inside the region and answers something fit. -/
structure Stays (r : Region) (s : State) (m : Eval α) (fit : Heap → α → Prop) : Prop where
  moves : r.Moves s.heap (final m s).heap
  answer : ∀ {a t}, m s = .ok a t → fit t.heap a

namespace Stays

theorem of_ok {m : Eval α} {a : α} {t : State} (h : m s = .ok a t) (hmoves : r.Moves s.heap t.heap)
    (ha : fit t.heap a) : Stays r s m fit := by
  refine ⟨by rwa [final_of_ok h], ?_⟩
  intro b u hb
  rw [h] at hb
  cases hb
  exact ha

theorem of_error {m : Eval α} {e : RuntimeError} {t : State} (h : m s = .error e t)
    (hmoves : r.Moves s.heap t.heap) : Stays r s m fit := by
  refine ⟨by rwa [final_of_error h], ?_⟩
  intro b u hb
  rw [h] at hb
  cases hb

theorem congr {m m' : Eval α} (hm : Stays r s m fit) (heq : m' s = m s) : Stays r s m' fit := by
  cases h : m s with
  | ok a t => exact of_ok (heq.trans h) (final_of_ok h ▸ hm.moves) (hm.answer h)
  | error e t => exact of_error (heq.trans h) (final_of_error h ▸ hm.moves)

theorem pure {a : α} (hc : r.Confines s.heap) (ha : fit s.heap a) :
    Stays r s (Pure.pure a : Eval α) fit :=
  of_ok rfl (.refl hc) ha

theorem throw (hc : r.Confines s.heap) (e : RuntimeError) : Stays r s (throw e : Eval α) fit :=
  of_error rfl (.refl hc)

/-- What comes next starts in a heap that has moved on inside the region. -/
theorem bind {m : Eval α} {f : α → Eval β} (hm : Stays r s m fit)
    (hf : ∀ a t, r.Moves s.heap t.heap → fit t.heap a → Stays r t (f a) fit') :
    Stays r s (m >>= f) fit' := by
  cases h : m s with
  | ok a t =>
    have hst : r.Moves s.heap t.heap := final_of_ok h ▸ hm.moves
    have hnext := hf a t hst (hm.answer h)
    refine ⟨by rw [final_bind_of_ok h]; exact hst.trans hnext.moves, ?_⟩
    intro b u hb
    rw [bind_of_ok h] at hb
    exact hnext.answer hb
  | error e t => exact of_error (bind_of_error h) (final_of_error h ▸ hm.moves)

theorem readHeap (hc : r.Confines s.heap) (f : Heap → α) :
    Stays r s (Eval.readHeap f) fun h a => a = f h :=
  of_ok rfl (.refl hc) rfl

theorem onHeap {action : EStateM RuntimeError Heap Unit}
    (hmoves : r.Moves s.heap (final action s.heap)) :
    Stays r s (Eval.onHeap action) fun _ _ => True := by
  refine ⟨?_, fun _ => trivial⟩
  rw [final_onHeap]
  exact hmoves

theorem lookup (hc : r.Confines s.heap) {scope : ScopeId}
    (hscope : r.Contains s.heap (.scope scope)) (name : String) :
    Stays r s (Eval.lookup scope name) r.Admits := by
  apply bind (readHeap hc _)
  intro answer t hmoves hanswer
  have hscope' := hscope.mono hmoves.has
  cases answer with
  | ok value => exact pure hmoves.confines (hmoves.confines.admits_lookup hscope' hanswer.symm)
  | error e => exact throw hmoves.confines e

theorem newChild (hc : r.Confines s.heap) {parent : ScopeId}
    (hparent : r.Contains s.heap (.scope parent)) :
    Stays r s (Eval.newChild parent) fun h child => r.Contains h (.scope child) :=
  of_ok rfl (hc.newChild hparent).1 (hc.newChild hparent).2

theorem newStamp (hc : r.Confines s.heap) {place : Place} (hplace : r.Contains s.heap place) :
    Stays r s Eval.newStamp fun _ _ => True :=
  of_ok rfl (hc.newStamp hplace) trivial

theorem newArray (hc : r.Confines s.heap) {items : List Value}
    (hitems : ∀ v ∈ items, r.Admits s.heap v) : Stays r s (Eval.newArray items) r.Admits := by
  have hnew := hc.newArray items.toArray fun v hv => hitems v (List.mem_toArray.mp hv)
  refine of_ok rfl hnew.1 ?_
  intro place hplace
  cases hplace
  exact hnew.2

theorem newObject (hc : r.Confines s.heap) {entries : List (String × Value)}
    (hentries : ∀ entry ∈ entries, r.Admits s.heap entry.2) :
    Stays r s (Eval.newObject entries) r.Admits := by
  have hnew := hc.newObject (Table.ofEntries entries) fun key v hget =>
    hentries _ (Table.mem_of_get?_ofEntries hget)
  refine of_ok rfl hnew.1 ?_
  intro place hplace
  cases hplace
  exact hnew.2

theorem declare (hc : r.Confines s.heap) {scope : ScopeId} {value : Value}
    (hscope : r.Contains s.heap (.scope scope)) (name : String) (hvalue : r.Admits s.heap value)
    (constant : Bool) : Stays r s (Eval.declare scope name value constant) r.Admits := by
  apply bind (onHeap (hc.declare name constant hscope hvalue))
  intro _ t hmoves _
  exact pure hmoves.confines (hvalue.mono hmoves.has)

theorem assign (hc : r.Confines s.heap) {scope : ScopeId} {value : Value}
    (hscope : r.Contains s.heap (.scope scope)) (name : String) (hvalue : r.Admits s.heap value) :
    Stays r s (Eval.assign scope name value) r.Admits := by
  apply bind (onHeap (hc.assign name hscope hvalue))
  intro _ t hmoves _
  exact pure hmoves.confines (hvalue.mono hmoves.has)

theorem slot (hc : r.Confines s.heap) {container : Value} (hcontainer : r.Admits s.heap container)
    (key : Value) : Stays r s (Eval.slot container key) r.Holds := by
  unfold Eval.slot
  split
  · exact pure hc (hcontainer _ rfl)
  · exact throw hc _
  · exact pure hc (hcontainer _ rfl)
  · exact pure hc (hcontainer _ rfl)
  · exact throw hc _
  · exact throw hc _

theorem access (hc : r.Confines s.heap) {slot : Slot} (hslot : r.Holds s.heap slot)
    {new? : Option Value} (hnew : ∀ value, new? = some value → r.Admits s.heap value) :
    Stays r s (slot.access new?) r.Admits := by
  cases new? with
  | none => exact of_ok rfl (.refl hc) (hc.read hslot)
  | some value =>
    apply bind (onHeap (hc.write hslot (hnew value rfl)))
    intro _ t hmoves _
    exact pure hmoves.confines ((hnew value rfl).mono hmoves.has)

theorem printLine (hc : r.Confines s.heap) (line : String) :
    Stays r s (Eval.printLine line) fun _ _ => True := by
  refine ⟨?_, fun _ => trivial⟩
  rw [heap_printLine]
  exact .refl hc

theorem callNative (hc : r.Confines s.heap) {scope : ScopeId}
    (hscope : r.Contains s.heap (.scope scope)) (function : Native) {arguments : List Value}
    (harguments : ∀ v ∈ arguments, r.Admits s.heap v) :
    Stays r s (Eval.callNative function arguments scope) r.Admits := by
  unfold Eval.callNative
  split
  · apply bind (readHeap hc _)
    intro line t hmoves _
    apply bind (printLine hmoves.confines line)
    intro _ u hmoves' _
    exact pure hmoves'.confines (Region.admits_of_place?_eq_none rfl)
  · exact of_ok rfl (.refl hc) (Region.admits_of_place?_eq_none rfl)
  · exact newArray hc harguments
  · exact lookup hc hscope _

theorem counted {call : Eval α} (hcall : Stays r { s with depth := s.depth + 1 } call fit) :
    Stays r s (Eval.counted call) fit := by
  refine ⟨by rw [heap_counted]; exact hcall.moves, ?_⟩
  intro a t ha
  cases h : call { s with depth := s.depth + 1 } with
  | ok b u =>
    have hu : fit u.heap b := hcall.answer h
    rw [counted_eq, h] at ha
    cases ha
    exact hu
  | error e u =>
    rw [counted_eq, h] at ha
    cases ha

end Stays

def Inside (r : Region) (scope : ScopeId) (m : Eval α) (fit : Heap → α → Prop) : Prop :=
  ∀ s : State, r.Confines s.heap → r.Contains s.heap (.scope scope) → Stays r s m fit

def CallsStay (r : Region) (call : Caller) : Prop :=
  ∀ (closure : Closure) (arguments : List Value) (s : State), r.Confines s.heap →
    r.Admits s.heap (.function closure) → (∀ v ∈ arguments, r.Admits s.heap v) →
      Stays r s (call closure arguments) r.Admits

namespace Inside

variable {scope : ScopeId}

theorem bind {m : Eval α} {f : α → Eval β} (hm : Inside r scope m fit)
    (hf : ∀ (a : α) (s : State), r.Confines s.heap → r.Contains s.heap (.scope scope) →
      fit s.heap a → Stays r s (f a) fit') : Inside r scope (m >>= f) fit' :=
  fun s hc hscope => (hm s hc hscope).bind fun a t hmoves ha =>
    hf a t hmoves.confines (hscope.mono hmoves.has) ha

theorem plain {value : Value} (hnone : value.place? = none) :
    Inside r scope (Pure.pure value) r.Admits :=
  fun _ hc _ => .pure hc (Region.admits_of_place?_eq_none hnone)

theorem throw (e : RuntimeError) : Inside r scope (throw e : Eval α) fit :=
  fun _ hc _ => .throw hc e

theorem lookup (name : String) : Inside r scope (Eval.lookup scope name) r.Admits :=
  fun _ hc hscope => .lookup hc hscope name

theorem memberKey (property : Expr) (computed : Bool) {evaluated : Eval Value}
    (h : Inside r scope evaluated r.Admits) :
    Inside r scope (Eval.memberKey property computed evaluated) r.Admits := by
  unfold Eval.memberKey
  split
  · exact plain rfl
  · exact h

/-- The new value has been held while the container and the key were evaluated. -/
theorem member {container key : Eval Value} (hcontainer : Inside r scope container r.Admits)
    (hkey : Inside r scope key r.Admits) {new? : Option Value} {s : State}
    (hnew : ∀ value, new? = some value → r.Admits s.heap value)
    (hc : r.Confines s.heap) (hscope : r.Contains s.heap (.scope scope)) :
    Stays r s (Eval.member container key new? none) r.Admits := by
  rw [member_eq]
  apply (hcontainer s hc hscope).bind
  intro owner t ht howner
  split
  · apply (hkey t ht.confines (hscope.mono ht.has)).bind
    intro k u hu _
    apply (Stays.slot hu.confines (howner.mono hu.has) k).bind
    intro place v hv hplace
    apply Stays.access hv.confines hplace
    intro value hvalue
    exact (hnew value hvalue).mono (ht.trans (hu.trans hv)).has
  · exact .throw ht.confines _

/-- One value after the other is held until all are there. -/
theorem cons {m : Eval α} {ms : Eval (List α)}
    (hmono : ∀ {h h' : Heap} {a : α}, r.Moves h h' → fit h a → fit h' a)
    (hm : Inside r scope m fit) (hms : Inside r scope ms fun h as => ∀ a ∈ as, fit h a) :
    Inside r scope (do let a ← m; let as ← ms; return a :: as) fun h as => ∀ a ∈ as, fit h a := by
  apply hm.bind
  intro a s hc hscope ha
  apply (hms s hc hscope).bind
  intro as t ht has
  exact .pure ht.confines (List.forall_mem_cons.mpr ⟨hmono ht ha, has⟩)

section Caller

variable {call : Caller}

theorem callValue (hcall : CallsStay r call) {callee : Value} {arguments : List Value} {s : State}
    (hc : r.Confines s.heap) (hscope : r.Contains s.heap (.scope scope))
    (hcallee : r.Admits s.heap callee) (harguments : ∀ v ∈ arguments, r.Admits s.heap v) :
    Stays r s (Eval.callValue call callee arguments scope) r.Admits := by
  cases callee with
  | native function => exact .callNative hc hscope function harguments
  | function closure => exact hcall closure arguments s hc hcallee harguments
  | _ => exact .throw hc _

theorem binary (operator : Operator) {left right : Eval Value}
    (hleft : Inside r scope left r.Admits) (hright : Inside r scope right r.Admits) :
    Inside r scope (do let x ← left; let y ← right; return operator.apply x y) r.Admits := by
  refine hleft.bind fun _ s hc hscope _ => ?_
  refine hright.bind (fun _ t hc' hscope' _ => ?_) s hc hscope
  exact plain (operator.place?_apply _ _) t hc' hscope'

theorem called {arguments : Eval (List Value)} {callee : Eval Value} (hcall : CallsStay r call)
    (harguments : Inside r scope arguments fun h vs => ∀ v ∈ vs, r.Admits h v)
    (hcallee : Inside r scope callee r.Admits) :
    Inside r scope (do
      let values ← arguments
      let f ← callee
      Eval.callValue call f values scope) r.Admits := by
  apply harguments.bind
  intro values s hc hscope hvalues
  apply (hcallee s hc hscope).bind
  intro f t ht hf
  exact callValue hcall ht.confines (hscope.mono ht.has) hf fun v hv => (hvalues v hv).mono ht.has

mutual

/-- The cases are those of `Eval.expr`. -/
theorem expr (hcall : CallsStay r call) : ∀ e, Inside r scope (Eval.expr call scope e) r.Admits
  | .number _ => plain rfl
  | .string _ => plain rfl
  | .name name => lookup name
  | .binary operator left right => binary operator (expr hcall left) (expr hcall right)
  | .assign (.name name) value =>
    (expr hcall value).bind fun _ _ hc hscope hv => .assign hc hscope name hv
  | .assign (.member object property computed) value =>
    (expr hcall value).bind fun _ _ hc hscope hv =>
      member (expr hcall object) (memberKey property computed (expr hcall property))
        (fun _ heq => Option.some.inj heq ▸ hv) hc hscope
  | .assign (.number _) _ => throw _
  | .assign (.string _) _ => throw _
  | .assign (.binary _ _ _) _ => throw _
  | .assign (.assign _ _) _ => throw _
  | .assign (.object _) _ => throw _
  | .assign (.array _) _ => throw _
  | .assign (.call _ _) _ => throw _
  | .object ps => (properties hcall ps).bind fun _ _ hc _ hentries => .newObject hc hentries
  | .array es => (exprs hcall es).bind fun _ _ hc _ hitems => .newArray hc hitems
  | .member object property computed => fun _ hc hscope =>
    member (expr hcall object) (memberKey property computed (expr hcall property))
      (fun _ heq => (Option.some_ne_none _ heq.symm).elim) hc hscope
  | .call callee arguments => called hcall (exprs hcall arguments) (expr hcall callee)

theorem exprs (hcall : CallsStay r call) :
    ∀ es, Inside r scope (Eval.exprs call scope es) fun h vs => ∀ v ∈ vs, r.Admits h v
  | [] => fun _ hc _ => .pure hc (List.forall_mem_nil _)
  | e :: es => cons (fun hmoves hv => hv.mono hmoves.has) (expr hcall e) (exprs hcall es)

theorem properties (hcall : CallsStay r call) :
    ∀ ps, Inside r scope (Eval.properties call scope ps) fun h es => ∀ e ∈ es, r.Admits h e.2
  | [] => fun _ hc _ => .pure hc (List.forall_mem_nil _)
  | p :: ps => cons (fun hmoves hv => hv.mono hmoves.has) (property hcall p) (properties hcall ps)

theorem property (hcall : CallsStay r call) :
    ∀ p, Inside r scope (Eval.property call scope p) fun h e => r.Admits h e.2
  | .copied key => (lookup key).bind fun _ _ hc _ hv => .pure hc hv
  | .given _ value => (expr hcall value).bind fun _ _ hc _ hv => .pure hc hv

end

theorem stmt (hcall : CallsStay r call) (st : Stmt) :
    Inside r scope (Eval.stmt call scope st) r.Admits := by
  unfold Eval.stmt
  split
  · intro s hc hscope
    exact .declare hc hscope _ (Region.admits_of_place?_eq_none rfl) _
  · exact (expr hcall _).bind fun v s hc hscope hv => .declare hc hscope _ hv _
  · intro s hc hscope
    apply (Stays.newStamp hc hscope).bind
    intro stamp t ht _
    have hscope' := hscope.mono ht.has
    apply Stays.declare ht.confines hscope'
    -- The function leads to the scope that it is declared in.
    intro place hplace
    cases hplace
    exact hscope'
  · exact expr hcall _

/-- Statements stay inside whatever the value of those before them was. -/
theorem stmts (hcall : CallsStay r call) (stmts : List Stmt) {value : Value} {s : State}
    (hc : r.Confines s.heap) (hscope : r.Contains s.heap (.scope scope))
    (hvalue : r.Admits s.heap value) :
    Stays r s (stmts.foldlM (fun _ st => Eval.stmt call scope st) value) r.Admits := by
  induction stmts generalizing s value with
  | nil => exact .pure hc hvalue
  | cons st stmts ih =>
    rw [List.foldlM_cons]
    apply (stmt hcall st s hc hscope).bind
    intro v t ht hv
    exact ih ht.confines (hscope.mono ht.has) hv

theorem body (hcall : CallsStay r call) (stmts : List Stmt) :
    Inside r scope (Eval.body call scope stmts) r.Admits :=
  fun _ hc hscope => Inside.stmts hcall stmts hc hscope (Region.admits_of_place?_eq_none rfl)

end Caller

theorem parameters (names : List String) {arguments : List Value} {s : State}
    (hc : r.Confines s.heap) (hscope : r.Contains s.heap (.scope scope))
    (harguments : ∀ v ∈ arguments, r.Admits s.heap v) :
    Stays r s (Eval.parameters scope names arguments) fun _ _ => True := by
  induction names generalizing s arguments with
  | nil => exact .pure hc trivial
  | cons name names ih =>
    have hfirst : r.Admits s.heap (arguments.head?.getD .null) := by
      cases arguments with
      | nil => exact Region.admits_of_place?_eq_none rfl
      | cons v vs => exact harguments v List.mem_cons_self
    apply (Stays.declare hc hscope name hfirst false).bind
    intro _ t ht _
    apply ih ht.confines (hscope.mono ht.has)
    intro v hv
    exact (harguments v (List.mem_of_mem_tail hv)).mono ht.has

end Inside

/-- Calls stay inside however deep they go: a function runs in a new scope, which leads to the one
that the function captured. -/
theorem callsStay_function (limit room : Nat) : CallsStay r (function limit room) := by
  induction room with
  | zero => exact fun _ _ _ hc _ _ => .throw hc _
  | succ room ih =>
    intro closure arguments s hc hclosure harguments
    have hrun : Stays r s (do
        let scope ← newChild closure.captured
        parameters scope closure.declaration.parameters arguments
        counted (body (function limit room) scope closure.declaration.body)) r.Admits := by
      apply (Stays.newChild hc (hclosure _ rfl)).bind
      intro scope t ht hscope
      apply (Inside.parameters _ ht.confines hscope fun v hv => (harguments v hv).mono ht.has).bind
      intro _ u hu _
      exact .counted (Inside.body ih _ _ hu.confines (hscope.mono hu.has))
    by_cases hfull : limit ≤ s.depth
    · exact .of_error ((function_succ ..).trans (if_pos hfull)) (.refl hc)
    · exact hrun.congr ((function_succ ..).trans (if_neg hfull))

theorem Inside.program (limit : Nat) (scope : ScopeId) (p : Program) :
    Inside r scope (Eval.program limit scope p) r.Admits :=
  .body (callsStay_function limit (limit + 1)) p

end Eval
end Script
