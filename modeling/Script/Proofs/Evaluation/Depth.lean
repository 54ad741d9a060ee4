import Script.Proofs.Evaluation.Keeps
import Script.Proofs.Evaluation.Machine

namespace Script

namespace Eval

/-- Whatever is evaluated, the counter of calls is afterwards what it was before. -/
theorem stable_depth : Stable fun s t => t.depth = s.depth where
  refl _ := rfl
  trans h h' := h'.trans h
  newChild _ _ := rfl
  newArray _ _ := rfl
  newObject _ _ := rfl
  newStamp _ := rfl
  readClock _ := rfl
  onDeclare scope name value constant s := by rw [final_onHeap]
  onAssign scope name value s := by rw [final_onHeap]
  onWrite slot value s := by rw [final_onHeap]
  printLine line s := by
    simp only [final, printLine]
    obtain ⟨answer, sink⟩ := s.sink.writeLine line
    cases answer <;> rfl
  counted {call} h s := by
    have hcall : (final call { s with depth := s.depth + 1 }).depth = s.depth + 1 := h _
    simp only [final] at hcall ⊢
    rw [counted_eq]
    cases hc : call { s with depth := s.depth + 1 } with
    | ok a t =>
      rw [hc] at hcall
      simp only [leave, hcall, Nat.add_sub_cancel]
    | error e t =>
      rw [hc] at hcall
      simp only [leave, hcall, Nat.add_sub_cancel]

end Eval

def Frame.isBody : Frame → Bool
  | .body => true
  | _ => false

def Control.isEntering : Control → Bool
  | .enter _ _ _ _ => true
  | _ => false

theorem Control.isEntering_ofKey (scope : ScopeId) (property : Expr) (computed : Bool) :
    (Control.ofKey scope property computed).isEntering = false := by
  unfold ofKey
  split <;> rfl

namespace Machine

def active (m : Machine) : Nat :=
  m.frames.countP Frame.isBody

/-- The counter of calls tells the bodies that are being evaluated, on top of a base. A body begins
only below the limit. -/
structure Counts (limit base : Nat) (m : Machine) : Prop where
  depth : m.state.depth = base + m.active
  bound : m.state.depth ≤ limit
  below : m.control.isEntering → m.state.depth < limit

namespace Counts

variable {limit base : Nat} {control control' : Control} {frames frames' : List Frame} {s : State}

/-- Only a body that begins or ends changes the count. -/
theorem goOn (h : Counts limit base ⟨control, frames, s⟩)
    (hframes : frames'.countP Frame.isBody = frames.countP Frame.isBody)
    (hcontrol : control'.isEntering = false) : Counts limit base ⟨control', frames', s⟩ := by
  refine ⟨?_, h.bound, fun hentering => Bool.noConfusion (hcontrol.symm.trans hentering)⟩
  rw [active, hframes]
  exact h.depth

theorem setHeap (h : Counts limit base ⟨control, frames, s⟩) (heap : Heap) :
    Counts limit base ⟨control, frames, { s with heap := heap }⟩ :=
  ⟨h.depth, h.bound, h.below⟩

/-- An action leaves the counter alone. -/
theorem settle (h : Counts limit base ⟨control, frames, s⟩) {α : Type} {m : Eval α}
    (hm : Eval.Keeps (fun s t => t.depth = s.depth) m) {next : α → Control}
    (hframes : frames'.countP Frame.isBody = frames.countP Frame.isBody)
    (hnext : ∀ a, (next a).isEntering → s.depth < limit) :
    Counts limit base (settle next frames' (m s)) := by
  have hdepth : s.depth = base + frames'.countP Frame.isBody := by
    rw [hframes]
    exact h.depth
  cases hs : m s with
  | ok a t =>
    have ht : t.depth = s.depth := hm.of_ok hs
    exact ⟨ht.trans hdepth, ht ▸ h.bound, fun hentering => ht ▸ hnext a hentering⟩
  | error e t =>
    have ht : t.depth = s.depth := hm.of_error hs
    exact ⟨ht.trans hdepth, ht ▸ h.bound, fun hentering => Bool.noConfusion hentering⟩

/-- An action that ends with a value. -/
theorem perform (h : Counts limit base ⟨control, frames, s⟩) {m : Eval Value}
    (hm : Eval.Keeps (fun s t => t.depth = s.depth) m)
    (hframes : frames'.countP Frame.isBody = frames.countP Frame.isBody) :
    Counts limit base (Machine.settle .value frames' (m s)) :=
  h.settle hm hframes fun _ hentering => Bool.noConfusion hentering

theorem begin (h : Counts limit base ⟨control, frames, s⟩) (hbelow : s.depth < limit)
    (hcontrol : control'.isEntering = false) :
    Counts limit base ⟨control', .body :: frames, { s with depth := s.depth + 1 }⟩ := by
  refine ⟨?_, hbelow, fun hentering => Bool.noConfusion (hcontrol.symm.trans hentering)⟩
  have hdepth : s.depth = base + frames.countP Frame.isBody := h.depth
  rw [active, List.countP_cons_of_pos rfl, ← Nat.add_assoc, ← hdepth]

theorem finish (h : Counts limit base ⟨control, .body :: frames, s⟩)
    (hcontrol : control'.isEntering = false) :
    Counts limit base ⟨control', frames, { s with depth := s.depth - 1 }⟩ := by
  have hdepth : s.depth = base + active ⟨control, .body :: frames, s⟩ := h.depth
  rw [active, List.countP_cons_of_pos rfl] at hdepth
  refine ⟨?_, Nat.le_trans (Nat.sub_le _ _) h.bound, fun hentering =>
    Bool.noConfusion (hcontrol.symm.trans hentering)⟩
  show s.depth - 1 = base + frames.countP Frame.isBody
  omega

theorem found (h : Counts limit base ⟨control, frames, s⟩) (name : String) (new? : Option Value)
    (answer : Option (ScopeId × Value)) :
    Counts limit base (Machine.found name new? frames s answer) := by
  unfold Machine.found
  split
  · exact h.goOn rfl rfl
  · split
    · exact h.goOn rfl rfl
    · split
      · exact h.goOn rfl rfl
      · exact (h.goOn rfl rfl).setHeap _

theorem resume {frame : Frame} (h : Counts limit base ⟨control, frame :: frames, s⟩) (v : Value) :
    Counts limit base (Machine.resume frames s frame v) := by
  cases frame with
  | left operator right scope => exact h.goOn rfl rfl
  | right operator x => exact h.goOn rfl rfl
  | assign scope name => exact h.goOn rfl rfl
  | write scope object property computed => exact h.goOn rfl rfl
  | owner scope property computed new? =>
    simp only [Machine.resume]
    split
    · exact h.goOn rfl (Control.isEntering_ofKey scope property computed)
    · exact h.goOn rfl rfl
  | key owner new? =>
    exact h.perform (Eval.stable_depth.bind (Eval.stable_depth.slot owner v) fun place =>
      Eval.stable_depth.access place new?) rfl
  | operand scope purpose done rest => exact h.goOn rfl rfl
  | entry scope done key rest => exact h.goOn rfl rfl
  | callee scope arguments => exact h.goOn rfl rfl
  | declare scope name constant =>
    exact h.perform (Eval.stable_depth.declare scope name v constant) rfl
  | stmts scope rest => exact h.goOn rfl rfl
  | body => exact h.finish rfl

theorem unwind {frame : Frame} (h : Counts limit base ⟨control, frame :: frames, s⟩)
    (e : RuntimeError) : Counts limit base (Machine.unwind frames s frame e) := by
  cases frame with
  -- An error that passes a body counts it off like a value does.
  | body => exact h.finish rfl
  | _ => exact h.goOn rfl rfl

theorem stepExpr (h : Counts limit base ⟨control, frames, s⟩) (scope : ScopeId) (e : Expr) :
    Counts limit base (Machine.stepExpr frames s scope e) := by
  unfold Machine.stepExpr
  split <;> exact h.goOn rfl rfl

theorem stepStmt (h : Counts limit base ⟨control, frames, s⟩) (scope : ScopeId) (st : Stmt) :
    Counts limit base (Machine.stepStmt frames s scope st) := by
  unfold Machine.stepStmt
  split
  · exact h.perform (Eval.stable_depth.declare _ _ _ _) rfl
  · exact h.goOn rfl rfl
  · exact h.perform (Eval.stable_depth.bind Eval.stable_depth.newStamp fun _ =>
      Eval.stable_depth.declare _ _ _ _) rfl
  · exact h.goOn rfl rfl

theorem stepCall (h : Counts limit base ⟨control, frames, s⟩) (scope : ScopeId)
    (arguments : List Value) (callee : Value) :
    Counts limit base (Machine.stepCall limit frames s scope arguments callee) := by
  unfold Machine.stepCall
  split
  · exact h.perform (Eval.stable_depth.callNative _ _ _) rfl
  · split
    · exact h.goOn rfl rfl
    · next hbelow =>
      -- From here to the body nothing else is called.
      exact h.settle (Eval.stable_depth.newChild _) rfl fun _ _ => Nat.lt_of_not_le hbelow
  · exact h.goOn rfl rfl

theorem step {m : Machine} (h : Counts limit base m) : Counts limit base (m.step limit) := by
  obtain ⟨control, frames, s⟩ := m
  cases control with
  | expr scope e => exact h.stepExpr scope e
  | operands scope purpose done rest =>
    cases rest with
    | cons e es => exact h.goOn rfl rfl
    | nil =>
      cases purpose with
      | array => exact h.perform (Eval.stable_depth.newArray done) rfl
      | call callee => exact h.goOn rfl rfl
  | entries scope done rest =>
    cases rest with
    | nil => exact h.perform (Eval.stable_depth.newObject done) rfl
    | cons p ps => cases p <;> exact h.goOn rfl rfl
  | find scope name new? =>
    simp only [Machine.step]
    split
    · exact h.found name new? _
    · exact h.goOn rfl rfl
    · exact h.found name new? none
  | call scope callee arguments => exact h.stepCall scope arguments callee
  | enter scope names arguments body =>
    -- The call was let in below the limit, and declaring parameters calls nothing.
    have hbelow : s.depth < limit := h.below rfl
    cases names with
    | nil => exact h.begin hbelow rfl
    | cons name names =>
      exact h.settle (Eval.stable_depth.declare scope name _ false) rfl fun _ _ => hbelow
  | stmt scope st => exact h.stepStmt scope st
  | stmts scope last rest => cases rest <;> exact h.goOn rfl rfl
  | value v =>
    cases frames with
    | nil => exact h
    | cons frame frames => exact h.resume v
  | error e =>
    cases frames with
    | nil => exact h
    | cons frame frames => exact h.unwind e

theorem run {m : Machine} (h : Counts limit base m) (n : Nat) :
    Counts limit base (m.run limit n) := by
  induction n generalizing m with
  | zero => exact h
  | succ n ih => exact ih h.step

/-- A machine that starts with no function body under way. -/
theorem start (hbound : s.depth ≤ limit) (hcontrol : control.isEntering = false) :
    Counts limit s.depth ⟨control, [], s⟩ :=
  ⟨rfl, hbound, fun hentering => Bool.noConfusion (hcontrol.symm.trans hentering)⟩

end Counts
end Machine
end Script
