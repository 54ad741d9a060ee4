import Script.Proofs.Evaluation.Depth
import Script.Proofs.Evaluation.WellFormed

namespace Script.Machine

variable {α β : Type} {limit room : Nat} {r : Region} {scope : ScopeId} {s : State}
  {control : Control} {frame : Frame} {frames : List Frame}

def Leads (limit : Nat) (m m' : Machine) : Prop :=
  ∃ n, m.run limit n = m'

theorem run_add (limit : Nat) (m : Machine) (n k : Nat) :
    m.run limit (n + k) = (m.run limit n).run limit k := by
  induction n generalizing m with
  | zero => rw [Nat.zero_add, run]
  | succ n ih =>
    rw [Nat.succ_add]
    exact ih (m.step limit)

theorem unwind_of_not_isBody (hframe : frame.isBody = false) (frames : List Frame) (s : State)
    (e : RuntimeError) : unwind frames s frame e = ⟨.error e, frames, s⟩ := by
  cases frame with
  | body => exact Bool.noConfusion hframe
  | _ => rfl

namespace Leads

variable {m m' m'' : Machine}

theorem refl : Leads limit m m :=
  ⟨0, rfl⟩

theorem trans (h : Leads limit m m') (h' : Leads limit m' m'') : Leads limit m m'' := by
  obtain ⟨n, rfl⟩ := h
  obtain ⟨k, rfl⟩ := h'
  exact ⟨n + k, run_add limit m n k⟩

theorem head (h : Leads limit (m.step limit) m') : Leads limit m m' := by
  obtain ⟨n, hn⟩ := h
  exact ⟨n + 1, hn⟩

/-- An action is done first, then what follows on its answer. -/
theorem bind {action : Eval α} {f : α → Eval β} {next : α → Control} {next' : β → Control}
    (haction : Leads limit ⟨control, frames, s⟩ (settle next frames (action s)))
    (hf : ∀ a t, action s = .ok a t →
      Leads limit ⟨next a, frames, t⟩ (settle next' frames (f a t))) :
    Leads limit ⟨control, frames, s⟩ (settle next' frames ((action >>= f) s)) := by
  cases h : action s with
  | ok a t =>
    rw [h] at haction
    rw [Eval.bind_of_ok h]
    exact haction.trans (hf a t h)
  | error e t =>
    rw [h] at haction
    rw [Eval.bind_of_error h]
    exact haction

/-- An action is done while a frame waits for its value. An error passes the frame. -/
theorem under {action : Eval Value} {f : Value → Eval β} {next : β → Control}
    (hframe : frame.isBody = false)
    (haction : Leads limit ⟨control, frame :: frames, s⟩
      (settle .value (frame :: frames) (action s)))
    (hf : ∀ v t, action s = .ok v t →
      Leads limit (resume frames t frame v) (settle next frames (f v t))) :
    Leads limit ⟨control, frame :: frames, s⟩ (settle next frames ((action >>= f) s)) := by
  cases h : action s with
  | ok v t =>
    rw [h] at haction
    rw [Eval.bind_of_ok h]
    exact haction.trans (.head (hf v t h))
  | error e t =>
    rw [h] at haction
    rw [Eval.bind_of_error h]
    refine haction.trans (.head ?_)
    show Leads limit (unwind frames t frame e) _
    rw [unwind_of_not_isBody hframe]
    exact .refl

/-- The links to parents lead through all the scopes that a name is looked for in. -/
theorem find (hlinked : s.heap.Linked) (scope : ScopeId) (name : String) (new? : Option Value) :
    Leads limit ⟨.find scope name new?, frames, s⟩
      (found name new? frames s (s.heap.binding? scope name)) := by
  induction scope using hlinked.induction with
  | outermost scope houter =>
    have hparent : s.heap.parent? scope = none := by rw [Heap.parent?, houter, List.head?_nil]
    refine .head ?_
    simp only [step, hparent, Heap.binding?, Heap.chain, houter, List.findSome?_cons,
      List.findSome?_nil]
    cases (s.heap.scope scope).bindings.get? name with
    | none => exact .refl
    | some value => exact .refl
  | inner scope parent hparent ih =>
    refine .head ?_
    simp only [step, hparent, Heap.binding?, Heap.chain, (hlinked scope parent hparent).2,
      List.findSome?_cons]
    cases (s.heap.scope scope).bindings.get? name with
    | none => exact ih
    | some value => exact .refl

end Leads

theorem settle_lookup (scope : ScopeId) (name : String) (frames : List Frame) (s : State) :
    settle .value frames (Eval.lookup scope name s) =
      found name none frames s (s.heap.binding? scope name) := by
  show settle .value frames (Eval.ofExcept (s.heap.lookup scope name) s) = _
  rw [Heap.lookup]
  cases s.heap.binding? scope name <;> rfl

theorem settle_assign (scope : ScopeId) (name : String) (v : Value) (frames : List Frame)
    (s : State) :
    settle .value frames (Eval.assign scope name v s) =
      found name (some v) frames s (s.heap.binding? scope name) := by
  rw [Eval.assign]
  cases h : s.heap.binding? scope name with
  | none =>
    have hassign : Eval.onHeap (Heap.assign scope name v) s = .error (.unresolvedName name) s := by
      simp only [Eval.onHeap, Heap.assign, h]
    rw [Eval.bind_of_error hassign]
    rfl
  | some answer =>
    obtain ⟨holder, old⟩ := answer
    rw [found]
    split
    · next hconstant =>
      have hassign : Eval.onHeap (Heap.assign scope name v) s =
          .error (.constantAssignment name) s := by
        simp only [Eval.onHeap, Heap.assign, h, if_pos hconstant]
      rw [Eval.bind_of_error hassign]
      rfl
    · next hconstant =>
      have hassign : Eval.onHeap (Heap.assign scope name v) s =
          .ok () { s with heap := s.heap.bind holder name v false } := by
        simp only [Eval.onHeap, Heap.assign, h, if_neg hconstant]
      rw [Eval.bind_of_ok hassign]
      rfl

structure Ready (r : Region) (limit room : Nat) (scope : ScopeId) (s : State) : Prop where
  confines : r.Confines s.heap
  inside : r.Contains s.heap (.scope scope)
  room : limit < s.depth + room

/-- The machine does in steps what an evaluation does at once, wherever all is ready. -/
structure Follows (r : Region) (limit room : Nat) (scope : ScopeId) (control : Control)
    (action : Eval α) (next : α → Control) (fit : Heap → α → Prop) : Prop where
  stays : Eval.Inside r scope action fit
  depth : Eval.Keeps (fun s t => t.depth = s.depth) action
  leads : ∀ s frames, Ready r limit room scope s →
    Leads limit ⟨control, frames, s⟩ (settle next frames (action s))

def CallsLead (r : Region) (limit room : Nat) : Prop :=
  ∀ (closure : Closure) (arguments : List Value) (scope : ScopeId) (s : State)
    (frames : List Frame), r.Confines s.heap → r.Admits s.heap (.function closure) →
    (∀ v ∈ arguments, r.Admits s.heap v) → limit < s.depth + room →
      Leads limit ⟨.call scope (.function closure) arguments, frames, s⟩
        (settle .value frames (Eval.function limit room closure arguments s))

namespace Follows

variable {action : Eval α} {next : α → Control} {fit : Heap → α → Prop}

theorem moves (h : Follows r limit room scope control action next fit)
    (hs : Ready r limit room scope s) {a : α} {t : State} (ha : action s = .ok a t) :
    r.Moves s.heap t.heap :=
  Eval.final_of_ok ha ▸ (h.stays s hs.confines hs.inside).moves

theorem ready (h : Follows r limit room scope control action next fit)
    (hs : Ready r limit room scope s) {a : α} {t : State} (ha : action s = .ok a t) :
    Ready r limit room scope t := by
  have hmoves := h.moves hs ha
  have hdepth : t.depth = s.depth := h.depth.of_ok ha
  exact ⟨hmoves.confines, hs.inside.mono hmoves.has, hdepth ▸ hs.room⟩

theorem fits (h : Follows r limit room scope control action next fit)
    (hs : Ready r limit room scope s) {a : α} {t : State} (ha : action s = .ok a t) :
    fit t.heap a :=
  (h.stays s hs.confines hs.inside).answer ha

end Follows

section Syntax

abbrev FollowsExpr (r : Region) (limit room : Nat) (scope : ScopeId) (e : Expr) : Prop :=
  Follows r limit room scope (.expr scope e) (Eval.expr (Eval.function limit room) scope e) .value
    r.Admits

theorem followsExpr_of_leads {e : Expr} (h : ∀ s frames, Ready r limit room scope s →
    Leads limit ⟨.expr scope e, frames, s⟩
      (settle .value frames (Eval.expr (Eval.function limit room) scope e s))) :
    FollowsExpr r limit room scope e :=
  ⟨.expr (Eval.callsStay_function limit room) e,
    Eval.stable_depth.expr (Eval.stable_depth.function limit room) scope e, h⟩

theorem follows_name (hrooted : r.Rooted) (name : String) :
    FollowsExpr r limit room scope (.name name) := by
  apply followsExpr_of_leads
  intro s frames hs
  rw [Eval.expr, settle_lookup]
  exact .head (.find (hrooted.linked hs.confines) scope name none)

theorem follows_binary (operator : Operator) {left right : Expr}
    (hleft : FollowsExpr r limit room scope left) (hright : FollowsExpr r limit room scope right) :
    FollowsExpr r limit room scope (.binary operator left right) := by
  apply followsExpr_of_leads
  intro s frames hs
  rw [Eval.expr]
  refine .head (.under rfl (hleft.leads s _ hs) ?_)
  intro x t hx
  refine .under rfl (hright.leads t _ (hleft.ready hs hx)) ?_
  intro y u _
  exact .refl

theorem follows_assign (hrooted : r.Rooted) {value : Expr}
    (hvalue : FollowsExpr r limit room scope value) (name : String) :
    FollowsExpr r limit room scope (.assign (.name name) value) := by
  apply followsExpr_of_leads
  intro s frames hs
  rw [Eval.expr]
  refine .head (.under rfl (hvalue.leads s _ hs) ?_)
  intro v t hv
  rw [settle_assign]
  exact .find (hrooted.linked (hvalue.ready hs hv).confines) scope name (some v)

theorem follows_key {property : Expr} (hproperty : FollowsExpr r limit room scope property)
    (computed : Bool) :
    Follows r limit room scope (.ofKey scope property computed)
      (Eval.memberKey property computed (Eval.expr (Eval.function limit room) scope property))
      .value r.Admits := by
  unfold Control.ofKey
  split
  · exact ⟨.plain rfl, Eval.stable_depth.pure _, fun _ _ _ => .refl⟩
  · next hother =>
    -- Any other key is evaluated on both sides.
    unfold Eval.memberKey
    split
    · exact (hother _ rfl rfl).elim
    · exact hproperty

theorem leads_member {object property : Expr} (hobject : FollowsExpr r limit room scope object)
    (hproperty : FollowsExpr r limit room scope property) (computed : Bool) (new? : Option Value)
    (hs : Ready r limit room scope s) :
    Leads limit ⟨.expr scope object, .owner scope property computed new? :: frames, s⟩
      (settle .value frames (Eval.member (Eval.expr (Eval.function limit room) scope object)
        (Eval.memberKey property computed (Eval.expr (Eval.function limit room) scope property))
        new? none s)) := by
  rw [Eval.member_eq]
  refine .under rfl (hobject.leads s _ hs) ?_
  intro owner t howner
  simp only [resume]
  split
  · refine .under rfl ((follows_key hproperty computed).leads t _ (hobject.ready hs howner)) ?_
    intro k u _
    exact .refl
  · exact .refl

theorem follows_member {object property : Expr} (hobject : FollowsExpr r limit room scope object)
    (hproperty : FollowsExpr r limit room scope property) (computed : Bool) :
    FollowsExpr r limit room scope (.member object property computed) := by
  apply followsExpr_of_leads
  intro s frames hs
  rw [Eval.expr]
  exact .head (leads_member hobject hproperty computed none hs)

theorem follows_write {object property value : Expr}
    (hobject : FollowsExpr r limit room scope object)
    (hproperty : FollowsExpr r limit room scope property)
    (hvalue : FollowsExpr r limit room scope value) (computed : Bool) :
    FollowsExpr r limit room scope (.assign (.member object property computed) value) := by
  apply followsExpr_of_leads
  intro s frames hs
  rw [Eval.expr]
  refine .head (.under rfl (hvalue.leads s _ hs) ?_)
  intro v t hv
  exact leads_member hobject hproperty computed (some v) (hvalue.ready hs hv)

/-- The evaluation of operands, whatever they are for and whatever has been evaluated before. -/
abbrev FollowsExprs (r : Region) (limit room : Nat) (scope : ScopeId) (es : List Expr) : Prop :=
  ∀ purpose done, Follows r limit room scope (.operands scope purpose done es)
    (Eval.exprs (Eval.function limit room) scope es)
    (fun vs => .operands scope purpose (done ++ vs) []) fun h vs => ∀ v ∈ vs, r.Admits h v

theorem followsExprs_of_leads {es : List Expr} (h : ∀ purpose done s frames,
    Ready r limit room scope s → Leads limit ⟨.operands scope purpose done es, frames, s⟩
      (settle (fun vs => .operands scope purpose (done ++ vs) []) frames
        (Eval.exprs (Eval.function limit room) scope es s))) :
    FollowsExprs r limit room scope es :=
  fun purpose done => ⟨.exprs (Eval.callsStay_function limit room) es,
    Eval.stable_depth.exprs (Eval.stable_depth.function limit room) scope es, h purpose done⟩

theorem followsExprs_nil : FollowsExprs r limit room scope [] := by
  apply followsExprs_of_leads
  intro purpose done s frames _
  show Leads limit _ ⟨.operands scope purpose (done ++ []) [], frames, s⟩
  rw [List.append_nil]
  exact .refl

theorem followsExprs_cons {e : Expr} {es : List Expr} (he : FollowsExpr r limit room scope e)
    (hes : FollowsExprs r limit room scope es) : FollowsExprs r limit room scope (e :: es) := by
  apply followsExprs_of_leads
  intro purpose done s frames hs
  rw [Eval.exprs]
  refine .head (.under rfl (he.leads s _ hs) ?_)
  intro v t hv
  -- The rest is evaluated with one more value done.
  refine .bind ((hes purpose (done ++ [v])).leads t frames (he.ready hs hv)) ?_
  intro vs u _
  show Leads limit _ ⟨.operands scope purpose (done ++ v :: vs) [], frames, u⟩
  rw [List.append_assoc, List.singleton_append]
  exact .refl

theorem follows_array {es : List Expr} (hes : FollowsExprs r limit room scope es) :
    FollowsExpr r limit room scope (.array es) := by
  apply followsExpr_of_leads
  intro s frames hs
  rw [Eval.expr]
  refine .head (.bind ((hes .array []).leads s frames hs) ?_)
  intro vs t _
  exact .head .refl

theorem leads_callValue (hcalls : CallsLead r limit room) (hs : Ready r limit room scope s)
    {callee : Value} {arguments : List Value} (hcallee : r.Admits s.heap callee)
    (harguments : ∀ v ∈ arguments, r.Admits s.heap v) :
    Leads limit ⟨.call scope callee arguments, frames, s⟩ (settle .value frames
      (Eval.callValue (Eval.function limit room) callee arguments scope s)) := by
  cases callee with
  | function closure =>
    exact hcalls closure arguments scope s frames hs.confines hcallee harguments hs.room
  | _ => exact .head .refl

theorem follows_call (hcalls : CallsLead r limit room) {callee : Expr} {arguments : List Expr}
    (hcallee : FollowsExpr r limit room scope callee)
    (harguments : FollowsExprs r limit room scope arguments) :
    FollowsExpr r limit room scope (.call callee arguments) := by
  apply followsExpr_of_leads
  intro s frames hs
  rw [Eval.expr]
  have hvalues := harguments (.call callee) []
  refine .head (.bind (hvalues.leads s frames hs) ?_)
  intro values t hv
  have ht := hvalues.ready hs hv
  refine .head (.under rfl (hcallee.leads t _ ht) ?_)
  intro f u hf
  apply leads_callValue hcalls (hcallee.ready ht hf) (hcallee.fits ht hf)
  intro v hmem
  -- The arguments were there before the callee was evaluated.
  exact (hvalues.fits hs hv v hmem).mono (hcallee.moves ht hf).has

abbrev FollowsProperties (r : Region) (limit room : Nat) (scope : ScopeId) (ps : List Property) :
    Prop :=
  ∀ done, Follows r limit room scope (.entries scope done ps)
    (Eval.properties (Eval.function limit room) scope ps)
    (fun entries => .entries scope (done ++ entries) []) fun h es => ∀ e ∈ es, r.Admits h e.2

theorem followsProperties_of_leads {ps : List Property} (h : ∀ done s frames,
    Ready r limit room scope s → Leads limit ⟨.entries scope done ps, frames, s⟩
      (settle (fun entries => .entries scope (done ++ entries) []) frames
        (Eval.properties (Eval.function limit room) scope ps s))) :
    FollowsProperties r limit room scope ps :=
  fun done => ⟨.properties (Eval.callsStay_function limit room) ps,
    Eval.stable_depth.properties (Eval.stable_depth.function limit room) scope ps, h done⟩

theorem followsProperties_nil : FollowsProperties r limit room scope [] := by
  apply followsProperties_of_leads
  intro done s frames _
  show Leads limit _ ⟨.entries scope (done ++ []) [], frames, s⟩
  rw [List.append_nil]
  exact .refl

/-- A property is one more entry, however its value comes about. -/
theorem leads_entry {action : Eval Value} {ps : List Property}
    (haction : Follows r limit room scope control action .value r.Admits)
    (hps : FollowsProperties r limit room scope ps) (done : List (String × Value)) (key : String)
    (hs : Ready r limit room scope s) :
    Leads limit ⟨control, .entry scope done key ps :: frames, s⟩
      (settle (fun entries => .entries scope (done ++ entries) []) frames ((do
        let entry ← (do return (key, ← action))
        let entries ← Eval.properties (Eval.function limit room) scope ps
        return entry :: entries) s)) := by
  rw [bind_assoc]
  refine .under rfl (haction.leads s _ hs) ?_
  intro v t hv
  rw [pure_bind]
  refine .bind ((hps (done ++ [(key, v)])).leads t frames (haction.ready hs hv)) ?_
  intro entries u _
  show Leads limit _ ⟨.entries scope (done ++ (key, v) :: entries) [], frames, u⟩
  rw [List.append_assoc, List.singleton_append]
  exact .refl

theorem followsProperties_copied (hrooted : r.Rooted) (key : String) {ps : List Property}
    (hps : FollowsProperties r limit room scope ps) :
    FollowsProperties r limit room scope (.copied key :: ps) := by
  have hlookup : Follows r limit room scope (.find scope key none) (Eval.lookup scope key) .value
      r.Admits := by
    refine ⟨.lookup key, Eval.stable_depth.lookup scope key, ?_⟩
    intro s frames hs
    rw [settle_lookup]
    exact .find (hrooted.linked hs.confines) scope key none
  apply followsProperties_of_leads
  intro done s frames hs
  rw [Eval.properties, Eval.property]
  exact .head (leads_entry hlookup hps done key hs)

theorem followsProperties_given {value : Expr} (hvalue : FollowsExpr r limit room scope value)
    (key : String) {ps : List Property} (hps : FollowsProperties r limit room scope ps) :
    FollowsProperties r limit room scope (.given key value :: ps) := by
  apply followsProperties_of_leads
  intro done s frames hs
  rw [Eval.properties, Eval.property]
  exact .head (leads_entry hvalue hps done key hs)

theorem follows_object {ps : List Property} (hps : FollowsProperties r limit room scope ps) :
    FollowsExpr r limit room scope (.object ps) := by
  apply followsExpr_of_leads
  intro s frames hs
  rw [Eval.expr]
  refine .head (.bind ((hps []).leads s frames hs) ?_)
  intro entries t _
  exact .head .refl

/-- An expression that the machine is done with in one step. -/
theorem follows_plain {e : Expr} (h : ∀ s frames, stepExpr frames s scope e =
    settle .value frames (Eval.expr (Eval.function limit room) scope e s)) :
    FollowsExpr r limit room scope e := by
  apply followsExpr_of_leads
  intro s frames _
  rw [← h]
  exact .head .refl

mutual

/-- The cases are those of `Eval.expr`. -/
theorem followsExpr (hrooted : r.Rooted) (hcalls : CallsLead r limit room) :
    ∀ e, FollowsExpr r limit room scope e
  | .number _ => follows_plain fun _ _ => rfl
  | .string _ => follows_plain fun _ _ => rfl
  | .name name => follows_name hrooted name
  | .binary operator left right =>
    follows_binary operator (followsExpr hrooted hcalls left) (followsExpr hrooted hcalls right)
  | .assign (.name name) value => follows_assign hrooted (followsExpr hrooted hcalls value) name
  | .assign (.member object property computed) value =>
    follows_write (followsExpr hrooted hcalls object) (followsExpr hrooted hcalls property)
      (followsExpr hrooted hcalls value) computed
  | .assign (.number _) _ => follows_plain fun _ _ => rfl
  | .assign (.string _) _ => follows_plain fun _ _ => rfl
  | .assign (.binary _ _ _) _ => follows_plain fun _ _ => rfl
  | .assign (.assign _ _) _ => follows_plain fun _ _ => rfl
  | .assign (.object _) _ => follows_plain fun _ _ => rfl
  | .assign (.array _) _ => follows_plain fun _ _ => rfl
  | .assign (.call _ _) _ => follows_plain fun _ _ => rfl
  | .object ps => follows_object (followsProperties hrooted hcalls ps)
  | .array es => follows_array (followsExprs hrooted hcalls es)
  | .member object property computed =>
    follows_member (followsExpr hrooted hcalls object) (followsExpr hrooted hcalls property)
      computed
  | .call callee arguments =>
    follows_call hcalls (followsExpr hrooted hcalls callee) (followsExprs hrooted hcalls arguments)

theorem followsExprs (hrooted : r.Rooted) (hcalls : CallsLead r limit room) :
    ∀ es, FollowsExprs r limit room scope es
  | [] => followsExprs_nil
  | e :: es => followsExprs_cons (followsExpr hrooted hcalls e) (followsExprs hrooted hcalls es)

theorem followsProperties (hrooted : r.Rooted) (hcalls : CallsLead r limit room) :
    ∀ ps, FollowsProperties r limit room scope ps
  | [] => followsProperties_nil
  | .copied key :: ps => followsProperties_copied hrooted key (followsProperties hrooted hcalls ps)
  | .given key value :: ps =>
    followsProperties_given (followsExpr hrooted hcalls value) key
      (followsProperties hrooted hcalls ps)

end

theorem follows_stmt (hrooted : r.Rooted) (hcalls : CallsLead r limit room) (scope : ScopeId)
    (st : Stmt) :
    Follows r limit room scope (.stmt scope st) (Eval.stmt (Eval.function limit room) scope st)
      .value r.Admits := by
  refine ⟨.stmt (Eval.callsStay_function limit room) st,
    Eval.stable_depth.stmt (Eval.stable_depth.function limit room) scope st, ?_⟩
  intro s frames hs
  refine .head ?_
  cases st with
  | declare constant name value? =>
    cases value? with
    | none => exact .refl
    | some e =>
      refine .under rfl ((followsExpr hrooted hcalls e).leads s _ hs) ?_
      intro v t _
      exact .refl
  | function name parameters body => exact .refl
  | expr e => exact (followsExpr hrooted hcalls e).leads s frames hs

theorem leads_stmts (hrooted : r.Rooted) (hcalls : CallsLead r limit room) (rest : List Stmt)
    (last : Value) (hs : Ready r limit room scope s) :
    Leads limit ⟨.stmts scope last rest, frames, s⟩ (settle .value frames
      (rest.foldlM (fun _ st => Eval.stmt (Eval.function limit room) scope st) last s)) := by
  induction rest generalizing s last with
  | nil => exact .head .refl
  | cons st rest ih =>
    have hst := follows_stmt hrooted hcalls scope st
    rw [List.foldlM_cons]
    refine .head (.under rfl (hst.leads s _ hs) ?_)
    intro v t hv
    exact ih v (hst.ready hs hv)

end Syntax

theorem leads_parameters (names : List String) (arguments : List Value) (body : List Stmt) :
    Leads limit ⟨.enter scope names arguments body, frames, s⟩
      (settle (fun _ => .enter scope [] (arguments.drop names.length) body) frames
        (Eval.parameters scope names arguments s)) := by
  induction names generalizing arguments s with
  | nil => exact .refl
  | cons name names ih =>
    have hdeclare : Leads limit ⟨.enter scope (name :: names) arguments body, frames, s⟩
        (settle (fun _ => .enter scope names arguments.tail body) frames
          (Eval.declare scope name (arguments.head?.getD .null) false s)) := .head .refl
    rw [Eval.parameters]
    refine .bind hdeclare ?_
    intro _ t _
    rw [List.length_cons, ← List.drop_tail]
    exact ih arguments.tail

/-- The counter of calls goes down where the frame of the body is taken off. -/
theorem leads_counted {body : List Stmt} {action : Eval Value}
    (h : Leads limit ⟨.stmts scope .null body, .body :: frames, { s with depth := s.depth + 1 }⟩
      (settle .value (.body :: frames) (action { s with depth := s.depth + 1 })))
    (arguments : List Value) :
    Leads limit ⟨.enter scope [] arguments body, frames, s⟩
      (settle .value frames (Eval.counted action s)) := by
  refine .head (h.trans ?_)
  rw [Eval.counted_eq]
  cases action { s with depth := s.depth + 1 } with
  | ok v t => exact .head .refl
  | error e t => exact .head .refl

/-- A body starts with one call more on the counter and less room for calls inside it. -/
theorem leads_enter (hrooted : r.Rooted) (hcalls : CallsLead r limit room)
    (hs : Ready r limit (room + 1) scope s) {arguments : List Value}
    (harguments : ∀ v ∈ arguments, r.Admits s.heap v) (names : List String) (body : List Stmt) :
    Leads limit ⟨.enter scope names arguments body, frames, s⟩ (settle .value frames ((do
      Eval.parameters scope names arguments
      Eval.counted (Eval.body (Eval.function limit room) scope body)) s)) := by
  refine .bind (leads_parameters names arguments body) ?_
  intro _ t ht
  have hstays := Eval.Inside.parameters names hs.confines hs.inside harguments
  have hmoves : r.Moves s.heap t.heap := Eval.final_of_ok ht ▸ hstays.moves
  have hdepth : t.depth = s.depth := (Eval.stable_depth.parameters scope names arguments).of_ok ht
  -- The counter and the room together are what they were outside the body.
  have hready : Ready r limit room scope { t with depth := t.depth + 1 } := by
    refine ⟨hmoves.confines, hs.inside.mono hmoves.has, ?_⟩
    have hroom := hs.room
    show limit < t.depth + 1 + room
    omega
  exact leads_counted (leads_stmts hrooted hcalls body .null hready) _

/-- Calls are made in steps however deep they go. -/
theorem callsLead (hrooted : r.Rooted) (limit room : Nat) : CallsLead r limit room := by
  induction room with
  | zero =>
    intro closure arguments scope s frames _ _ _ hroom
    -- Without room the counter is above the limit, so the machine refuses the call too.
    have hfull : limit ≤ s.depth := Nat.le_of_lt hroom
    refine .head ?_
    show Leads limit (stepCall limit frames s scope arguments (.function closure)) _
    rw [stepCall, if_pos hfull]
    exact .refl
  | succ room ih =>
    intro closure arguments scope s frames hc hclosure harguments hroom
    refine .head ?_
    show Leads limit (stepCall limit frames s scope arguments (.function closure)) _
    rw [stepCall, Eval.function_succ]
    by_cases hfull : limit ≤ s.depth
    · rw [if_pos hfull, if_pos hfull]
      exact .refl
    · obtain ⟨child, t, hchild⟩ : ∃ child t, Eval.newChild closure.captured s = .ok child t :=
        ⟨_, _, rfl⟩
      rw [if_neg hfull, if_neg hfull, Eval.bind_of_ok hchild, hchild]
      have hstays := Eval.Stays.newChild hc (hclosure _ rfl)
      have hmoves : r.Moves s.heap t.heap := Eval.final_of_ok hchild ▸ hstays.moves
      have hdepth : t.depth = s.depth := (Eval.stable_depth.newChild _).of_ok hchild
      have hready : Ready r limit (room + 1) child t :=
        ⟨hmoves.confines, hstays.answer hchild, hdepth ▸ hroom⟩
      exact leads_enter hrooted ih hready (fun v hv => (harguments v hv).mono hmoves.has) _ _

end Script.Machine
