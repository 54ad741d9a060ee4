import Script.Proofs.Evaluation.Termination
import Script.Proofs.Heap.Journal

namespace Script

namespace Region

variable {r : Region} {h h' : Heap}

def HoldsFrame (r : Region) (h : Heap) : Frame → Prop
  | .left _ _ scope | .assign scope _ | .write scope _ _ _ | .declare scope _ _ | .stmts scope _ =>
    r.Contains h (.scope scope)
  | .right _ x => r.Admits h x
  | .owner scope _ _ new? => r.Contains h (.scope scope) ∧ ∀ v ∈ new?, r.Admits h v
  | .key container new? => r.Admits h container ∧ ∀ v ∈ new?, r.Admits h v
  | .operand scope _ done _ => r.Contains h (.scope scope) ∧ ∀ v ∈ done, r.Admits h v
  | .entry scope done _ _ => r.Contains h (.scope scope) ∧ ∀ entry ∈ done, r.Admits h entry.2
  | .callee scope arguments => r.Contains h (.scope scope) ∧ ∀ v ∈ arguments, r.Admits h v
  | .body => True

def HoldsControl (r : Region) (h : Heap) : Control → Prop
  | .expr scope _ | .stmt scope _ => r.Contains h (.scope scope)
  | .operands scope _ done _ => r.Contains h (.scope scope) ∧ ∀ v ∈ done, r.Admits h v
  | .entries scope done _ => r.Contains h (.scope scope) ∧ ∀ entry ∈ done, r.Admits h entry.2
  | .find scope _ new? => r.Contains h (.scope scope) ∧ ∀ v ∈ new?, r.Admits h v
  | .call scope callee arguments =>
    r.Contains h (.scope scope) ∧ r.Admits h callee ∧ ∀ v ∈ arguments, r.Admits h v
  | .enter scope _ arguments _ => r.Contains h (.scope scope) ∧ ∀ v ∈ arguments, r.Admits h v
  | .stmts scope last _ => r.Contains h (.scope scope) ∧ r.Admits h last
  | .value v => r.Admits h v
  | .error _ => True

theorem HoldsFrame.mono {frame : Frame} (hframe : r.HoldsFrame h frame)
    (hhas : ∀ {p}, h.Has p → h'.Has p) : r.HoldsFrame h' frame := by
  cases frame with
  | left | assign | write | declare | stmts => exact Contains.mono hframe hhas
  | right => exact Admits.mono hframe hhas
  | owner | key | operand | entry | callee =>
    exact ⟨hframe.1.mono hhas, fun v hv => (hframe.2 v hv).mono hhas⟩
  | body => trivial

end Region

namespace Machine

/-- Whatever has happened was confined to the region, and the machine leads nowhere else. -/
structure Inside (r : Region) (m : Machine) : Prop where
  confines : r.Confines m.state.heap
  control : r.HoldsControl m.state.heap m.control
  frames : ∀ frame ∈ m.frames, r.HoldsFrame m.state.heap frame

namespace Inside

variable {r : Region} {control control' : Control} {frame frame' : Frame} {frames : List Frame}
  {s : State}

theorem goOn (h : Inside r ⟨control, frames, s⟩) (hcontrol : r.HoldsControl s.heap control') :
    Inside r ⟨control', frames, s⟩ :=
  ⟨h.confines, hcontrol, h.frames⟩

theorem push (h : Inside r ⟨control, frames, s⟩) (hcontrol : r.HoldsControl s.heap control')
    (hframe : r.HoldsFrame s.heap frame) : Inside r ⟨control', frame :: frames, s⟩ :=
  ⟨h.confines, hcontrol, List.forall_mem_cons.mpr ⟨hframe, h.frames⟩⟩

theorem pop (h : Inside r ⟨control, frame :: frames, s⟩) : Inside r ⟨control, frames, s⟩ :=
  ⟨h.confines, h.control, (List.forall_mem_cons.mp h.frames).2⟩

theorem top (h : Inside r ⟨control, frame :: frames, s⟩) : r.HoldsFrame s.heap frame :=
  h.frames frame List.mem_cons_self

/-- The counter of calls leads nowhere. -/
theorem setDepth (h : Inside r ⟨control, frames, s⟩) (depth : Nat) :
    Inside r ⟨control, frames, { s with depth := depth }⟩ :=
  ⟨h.confines, h.control, h.frames⟩

/-- Inside the region the heap moves on. -/
theorem move (h : Inside r ⟨control, frames, s⟩) {t : State} (hmoves : r.Moves s.heap t.heap)
    (hcontrol : r.HoldsControl t.heap control') : Inside r ⟨control', frames, t⟩ :=
  ⟨hmoves.confines, hcontrol, fun frame hframe => (h.frames frame hframe).mono hmoves.has⟩

theorem settle (h : Inside r ⟨control, frames, s⟩) {α : Type} {action : Eval α}
    {fit : Heap → α → Prop} (hstays : Eval.Stays r s action fit) {next : α → Control}
    (hnext : ∀ (a : α) (t : State), r.Moves s.heap t.heap → fit t.heap a →
      r.HoldsControl t.heap (next a)) :
    Inside r (Machine.settle next frames (action s)) := by
  cases hs : action s with
  | ok a t =>
    have hmoves : r.Moves s.heap t.heap := Eval.final_of_ok hs ▸ hstays.moves
    exact h.move hmoves (hnext a t hmoves (hstays.answer hs))
  | error e t =>
    have hmoves : r.Moves s.heap t.heap := Eval.final_of_error hs ▸ hstays.moves
    have herror : r.HoldsControl t.heap (.error e) := trivial
    exact h.move hmoves herror

theorem perform (h : Inside r ⟨control, frames, s⟩) {action : Eval Value}
    (hstays : Eval.Stays r s action r.Admits) :
    Inside r (Machine.settle .value frames (action s)) :=
  h.settle hstays fun _ _ _ hv => hv

theorem plain (h : Inside r ⟨control, frames, s⟩) {v : Value} (hv : v.place? = none) :
    Inside r ⟨.value v, frames, s⟩ :=
  h.goOn (Region.admits_of_place?_eq_none hv)

theorem fail (h : Inside r ⟨control, frames, s⟩) (e : RuntimeError) :
    Inside r ⟨.error e, frames, s⟩ :=
  h.goOn trivial

theorem stepExpr {scope : ScopeId} {e : Expr} (h : Inside r ⟨.expr scope e, frames, s⟩) :
    Inside r (Machine.stepExpr frames s scope e) := by
  have hscope : r.Contains s.heap (.scope scope) := h.control
  have hnone : ∀ v ∈ (none : Option Value), r.Admits s.heap v := by simp
  unfold Machine.stepExpr
  split
  · exact h.plain rfl
  · exact h.plain rfl
  · exact h.goOn ⟨hscope, hnone⟩
  · exact h.push hscope hscope
  · exact h.push hscope hscope
  · exact h.push hscope hscope
  · exact h.fail _
  · exact h.goOn ⟨hscope, List.forall_mem_nil _⟩
  · exact h.goOn ⟨hscope, List.forall_mem_nil _⟩
  · exact h.push hscope ⟨hscope, hnone⟩
  · exact h.goOn ⟨hscope, List.forall_mem_nil _⟩

theorem stepStmt {scope : ScopeId} {st : Stmt} (h : Inside r ⟨.stmt scope st, frames, s⟩) :
    Inside r (Machine.stepStmt frames s scope st) := by
  have hscope : r.Contains s.heap (.scope scope) := h.control
  unfold Machine.stepStmt
  split
  · exact h.perform (.declare h.confines hscope _ (Region.admits_of_place?_eq_none rfl) _)
  · exact h.push hscope hscope
  · refine h.perform ((Eval.Stays.newStamp h.confines hscope).bind fun stamp t ht _ => ?_)
    have hscope' := hscope.mono ht.has
    apply Eval.Stays.declare ht.confines hscope'
    -- The function leads to the scope that it is declared in.
    intro place hplace
    cases hplace
    exact hscope'
  · exact h.goOn hscope

theorem stepCall {limit : Nat} {scope : ScopeId} {callee : Value} {arguments : List Value}
    (h : Inside r ⟨.call scope callee arguments, frames, s⟩) :
    Inside r (Machine.stepCall limit frames s scope arguments callee) := by
  obtain ⟨hscope, hcallee, harguments⟩ := h.control
  unfold Machine.stepCall
  split
  · exact h.perform (.callNative h.confines hscope _ harguments)
  · split
    · exact h.fail _
    · refine h.settle (.newChild h.confines (hcallee _ rfl)) fun child t ht hchild => ?_
      exact ⟨hchild, fun v hv => (harguments v hv).mono ht.has⟩
  · exact h.fail _

theorem resume {v : Value} (h : Inside r ⟨.value v, frame :: frames, s⟩) :
    Inside r (Machine.resume frames s frame v) := by
  have hv : r.Admits s.heap v := h.control
  have hsome : ∀ w ∈ some v, r.Admits s.heap w := fun w hw => Option.some.inj hw ▸ hv
  cases frame with
  | left operator right scope => exact h.pop.push h.top hv
  | right operator x => exact h.pop.plain (operator.place?_apply x v)
  | assign scope name => exact h.pop.goOn ⟨h.top, hsome⟩
  | write scope object property computed => exact h.pop.push h.top ⟨h.top, hsome⟩
  | owner scope property computed new? =>
    simp only [Machine.resume]
    split
    · refine h.pop.push ?_ ⟨hv, h.top.2⟩
      unfold Control.ofKey
      split
      · exact Region.admits_of_place?_eq_none rfl
      · exact h.top.1
    · exact h.pop.fail _
  | key container new? =>
    refine h.pop.perform ((Eval.Stays.slot h.confines h.top.1 v).bind fun place t ht hplace => ?_)
    exact .access ht.confines hplace fun w hw => (h.top.2 w hw).mono ht.has
  | operand scope purpose done rest =>
    refine h.pop.goOn ⟨h.top.1, List.forall_mem_append.mpr ⟨h.top.2, ?_⟩⟩
    exact List.forall_mem_singleton.mpr hv
  | entry scope done key rest =>
    refine h.pop.goOn ⟨h.top.1, List.forall_mem_append.mpr ⟨h.top.2, ?_⟩⟩
    exact List.forall_mem_singleton.mpr hv
  | callee scope arguments => exact h.pop.goOn ⟨h.top.1, hv, h.top.2⟩
  | declare scope name constant => exact h.pop.perform (.declare h.confines h.top name hv constant)
  | stmts scope rest => exact h.pop.goOn ⟨h.top, hv⟩
  | body => exact h.pop.setDepth _

theorem unwind {e : RuntimeError} (h : Inside r ⟨.error e, frame :: frames, s⟩) :
    Inside r (Machine.unwind frames s frame e) := by
  cases frame with
  | body => exact h.pop.setDepth _
  | _ => exact h.pop

/-- A name that is found is given its new value, if there is one, in the scope that binds it. -/
theorem found {scope : ScopeId} {name : String} {new? : Option Value} {value : Value}
    (h : Inside r ⟨.find scope name new?, frames, s⟩)
    (hbinding : (s.heap.scope scope).bindings.get? name = some value) :
    Inside r (Machine.found name new? frames s (some (scope, value))) := by
  obtain ⟨hscope, hnew⟩ := h.control
  unfold Machine.found
  split
  · cases ‹some _ = none›
  · next holder found heq =>
    obtain ⟨rfl, rfl⟩ := Prod.mk.inj (Option.some.inj heq)
    split
    · exact h.goOn fun place hplace => h.confines.closed hscope (.held (.bound hbinding) hplace)
    · next v =>
      have hv := hnew v rfl
      split
      · exact h.fail _
      · have hmoves : r.Moves s.heap (s.heap.bind scope name v false) :=
          h.confines.bind name false hscope hv
        exact h.move hmoves (hv.mono hmoves.has)

theorem step {m : Machine} (h : Inside r m) (limit : Nat) : Inside r (m.step limit) := by
  obtain ⟨control, frames, s⟩ := m
  cases control with
  | expr scope e => exact h.stepExpr
  | operands scope purpose done rest =>
    obtain ⟨hscope, hdone⟩ := h.control
    cases rest with
    | cons e es => exact h.push hscope ⟨hscope, hdone⟩
    | nil =>
      cases purpose with
      | array => exact h.perform (.newArray h.confines hdone)
      | call callee => exact h.push hscope ⟨hscope, hdone⟩
  | entries scope done rest =>
    obtain ⟨hscope, hdone⟩ := h.control
    cases rest with
    | nil => exact h.perform (.newObject h.confines hdone)
    | cons p ps =>
      cases p with
      | copied key => exact h.push ⟨hscope, by simp⟩ ⟨hscope, hdone⟩
      | given key e => exact h.push hscope ⟨hscope, hdone⟩
  | find scope name new? =>
    obtain ⟨hscope, hnew⟩ := h.control
    simp only [Machine.step]
    split
    · next hbinding => exact h.found hbinding
    · next parent _ hparent =>
      have houter : parent ∈ (s.heap.scope scope).outer := List.mem_of_head? hparent
      exact h.goOn ⟨h.confines.closed hscope (.outer houter), hnew⟩
    · exact h.fail _
  | call scope callee arguments => exact h.stepCall
  | enter scope names arguments body =>
    obtain ⟨hscope, harguments⟩ := h.control
    cases names with
    | nil =>
      have hlast : r.HoldsControl s.heap (.stmts scope .null body) :=
        ⟨hscope, Region.admits_of_place?_eq_none rfl⟩
      have hbody : r.HoldsFrame s.heap .body := trivial
      exact (h.push hlast hbody).setDepth _
    | cons name names =>
      have hfirst : r.Admits s.heap (arguments.head?.getD .null) := by
        cases arguments with
        | nil => exact Region.admits_of_place?_eq_none rfl
        | cons v vs => exact harguments v List.mem_cons_self
      refine h.settle (.declare h.confines hscope name hfirst false) fun _ t ht _ => ?_
      exact ⟨hscope.mono ht.has, fun v hv => (harguments v (List.mem_of_mem_tail hv)).mono ht.has⟩
  | stmt scope st => exact h.stepStmt
  | stmts scope last rest =>
    obtain ⟨hscope, hlast⟩ := h.control
    cases rest with
    | nil => exact h.goOn hlast
    | cons st rest => exact h.push hscope hscope
  | value v =>
    cases frames with
    | nil => exact h
    | cons frame frames => exact h.resume
  | error e =>
    cases frames with
    | nil => exact h
    | cons frame frames => exact h.unwind

theorem run {m : Machine} (h : Inside r m) (limit n : Nat) : Inside r (m.run limit n) := by
  induction n generalizing m with
  | zero => exact h
  | succ n ih => exact ih (h.step limit)

end Inside
end Machine

namespace Eval

def SameObjects (s t : State) : Prop :=
  t.heap.objects = s.heap.objects

theorem composes_sameObjects : Composes SameObjects where
  refl _ := rfl
  trans h h' := h'.trans h

theorem sameObjects_declare (scope : ScopeId) (name : String) (value : Value) (constant : Bool) :
    Keeps SameObjects (declare scope name value constant) := by
  refine composes_sameObjects.bind (fun s => ?_) fun _ => composes_sameObjects.pure value
  rw [SameObjects, final_onHeap]
  unfold final Heap.declare
  by_cases hbound : (s.heap.scope scope).bindings.contains name
  · rw [if_pos hbound]
  · rw [if_neg hbound]
    rfl

theorem sameObjects_callNative (function : Native) (arguments : List Value) (scope : ScopeId) :
    Keeps SameObjects (callNative function arguments scope) := by
  have hc := composes_sameObjects
  have hprint : ∀ line, Keeps SameObjects (printLine line) := fun line s => by
    rw [SameObjects, heap_printLine]
  unfold callNative
  split
  · exact hc.bind (hc.readHeap _) fun line => hc.bind (hprint line) fun _ => hc.pure _
  · exact hc.bind (fun _ => rfl) fun _ => hc.pure _
  · exact fun _ => rfl
  · exact hc.lookup _ _

theorem sameObjects_access_item (array : ArrayId) (x : Float) (new? : Option Value) :
    Keeps SameObjects ((Slot.item array x).access new?) := by
  cases new? with
  | none => exact composes_sameObjects.read _
  | some value =>
    refine composes_sameObjects.bind (fun s => ?_) fun _ => composes_sameObjects.pure value
    rw [SameObjects, final_onHeap]
    unfold final
    generalize hresult : (Slot.item array x).write value s.heap = result
    cases Slot.writes hresult <;> rfl

end Eval

def Value.propertyKey? : Value → Option String
  | .string name => some name
  | .number x => some (Number.shown.format x)
  | _ => none

/-- What is written when a frame gets a value: a member, where that value was the key of it. -/
def Frame.writes (key : Value) : Frame → Journal
  | .key (.object object) (some value) =>
    .into object (key.propertyKey?.toList.map fun name => (name, value))
  | _ => []

namespace Machine

def writes : Machine → Journal
  | ⟨.entries _ done [], _, s⟩ => .into ⟨s.heap.objects.size⟩ done
  | ⟨.value v, frame :: _, _⟩ => frame.writes v
  | _ => []

def journal (limit : Nat) : Nat → Machine → Journal
  | 0, _ => []
  | n + 1, m => m.writes ++ journal limit n (m.step limit)

theorem objects_settle {α : Type} {action : Eval α} (h : Eval.Keeps Eval.SameObjects action)
    (next : α → Control) (frames : List Frame) (s : State) :
    (settle next frames (action s)).state.heap.objects = s.heap.objects := by
  cases hs : action s with
  | ok a t => exact h.of_ok hs
  | error e t => exact h.of_error hs

theorem objects_found (name : String) (new? : Option Value) (frames : List Frame) (s : State)
    (answer : Option (ScopeId × Value)) :
    (found name new? frames s answer).state.heap.objects = s.heap.objects := by
  unfold found
  split
  · rfl
  · split
    · rfl
    · split <;> rfl

theorem state_stepExpr (frames : List Frame) (s : State) (scope : ScopeId) (e : Expr) :
    (stepExpr frames s scope e).state = s := by
  unfold stepExpr
  split <;> rfl

theorem objects_stepStmt (frames : List Frame) (s : State) (scope : ScopeId) (st : Stmt) :
    (stepStmt frames s scope st).state.heap.objects = s.heap.objects := by
  unfold stepStmt
  split
  · exact objects_settle (Eval.sameObjects_declare _ _ _ _) ..
  · rfl
  · have hstamp : Eval.Keeps Eval.SameObjects Eval.newStamp := fun _ => rfl
    exact objects_settle (Eval.composes_sameObjects.bind hstamp fun _ =>
      Eval.sameObjects_declare _ _ _ _) ..
  · rfl

theorem objects_stepCall (limit : Nat) (frames : List Frame) (s : State) (scope : ScopeId)
    (arguments : List Value) (callee : Value) :
    (stepCall limit frames s scope arguments callee).state.heap.objects = s.heap.objects := by
  unfold stepCall
  split
  · exact objects_settle (Eval.sameObjects_callNative _ _ _) ..
  · split <;> rfl
  · rfl

theorem objects_unwind (frames : List Frame) (s : State) (frame : Frame) (e : RuntimeError) :
    (unwind frames s frame e).state.heap.objects = s.heap.objects := by
  cases frame <;> rfl

section Tells

variable {origin : Heap} {log : Journal} {frames : List Frame} {s : State}

/-- A step that gives a value to the frame that waits for it. -/
theorem tells_resume {frame : Frame} {v : Value}
    (h : Inside (.whole origin) ⟨.value v, frame :: frames, s⟩) (hlog : log.Tells s.heap) :
    (log ++ frame.writes v).Tells (resume frames s frame v).state.heap := by
  cases frame with
  | key container new? =>
    cases container with
    | object object =>
      cases new? with
      | none =>
        have hc := Eval.composes_sameObjects
        exact hlog.quiet (objects_settle (hc.bind (hc.slot _ v) hc.read) ..)
      | some value =>
        have hobject : s.heap.Has (.object object) :=
          (h.confines.contains_whole_iff _).mp (h.top.1 _ rfl)
        -- A value that is no key fails and writes nothing.
        cases v with
        | string name => exact hlog.insert hobject name value
        | number x => exact hlog.insert hobject (Number.shown.format x) value
        | _ => exact hlog.quiet rfl
    | array array =>
      cases v with
      | number x => exact hlog.quiet (objects_settle (Eval.sameObjects_access_item array x new?) ..)
      | _ => exact hlog.quiet rfl
    | _ => exact hlog.quiet rfl
  | owner scope property computed new? =>
    refine hlog.quiet ?_
    simp only [resume]
    split <;> rfl
  | declare scope name constant =>
    exact hlog.quiet (objects_settle (Eval.sameObjects_declare scope name v constant) ..)
  | _ => exact hlog.quiet rfl

/-- After a step the heap is what was told before and what the step writes. -/
theorem tells_step {m : Machine} (h : Inside (.whole origin) m) (hlog : log.Tells m.state.heap)
    (limit : Nat) : (log ++ m.writes).Tells (m.step limit).state.heap := by
  obtain ⟨control, frames, s⟩ := m
  cases control with
  | expr scope e => exact hlog.quiet (congrArg (·.heap.objects) (state_stepExpr frames s scope e))
  | operands scope purpose done rest =>
    cases rest with
    | cons e es => exact hlog.quiet rfl
    | nil => cases purpose <;> exact hlog.quiet rfl
  | entries scope done rest =>
    cases rest with
    | nil => exact hlog.newObject done
    | cons p ps => cases p <;> exact hlog.quiet rfl
  | find scope name new? =>
    refine hlog.quiet ?_
    simp only [step]
    split
    · exact objects_found ..
    · rfl
    · exact objects_found ..
  | call scope callee arguments => exact hlog.quiet (objects_stepCall ..)
  | enter scope names arguments body =>
    cases names with
    | nil => exact hlog.quiet rfl
    | cons name names => exact hlog.quiet (objects_settle (Eval.sameObjects_declare _ _ _ _) ..)
  | stmt scope st => exact hlog.quiet (objects_stepStmt ..)
  | stmts scope last rest => cases rest <;> exact hlog.quiet rfl
  | value v =>
    cases frames with
    | nil => exact hlog.quiet rfl
    | cons frame frames => exact tells_resume h hlog
  | error e =>
    cases frames with
    | nil => exact hlog.quiet rfl
    | cons frame frames => exact hlog.quiet (objects_unwind ..)

/-- After a run the heap is what was told before and what the steps write. -/
theorem tells_run {m : Machine} (h : Inside (.whole origin) m) (hlog : log.Tells m.state.heap)
    (limit n : Nat) : (log ++ journal limit n m).Tells (m.run limit n).state.heap := by
  induction n generalizing m log with
  | zero =>
    rw [journal, List.append_nil]
    exact hlog
  | succ n ih =>
    rw [journal, ← List.append_assoc]
    exact ih (h.step limit) (tells_step h hlog limit)

end Tells
end Machine

/-- A machine that starts with what has been made stays with it. -/
theorem Task.inside_start {s : State} {task : Task} (hw : s.heap.WellFormed)
    (hfits : task.Fits s.heap) : (task.start s).Inside (.whole s.heap) := by
  refine ⟨Region.confines_whole hw, ?_, List.forall_mem_nil _⟩
  cases task with
  | expr scope e => exact .inl hfits
  | stmt scope st => exact .inl hfits
  | program scope p => exact ⟨.inl hfits, Region.admits_of_place?_eq_none rfl⟩
  | call scope callee arguments =>
    obtain ⟨hscope, hcallee, harguments⟩ := hfits
    exact ⟨.inl hscope, fun place hplace => .inl (hcallee place hplace),
      fun v hv place hplace => .inl (harguments v hv place hplace)⟩

end Script
