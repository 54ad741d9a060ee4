import Script.Proofs.Evaluation.Keeps
import Script.Proofs.Heap.Scope

namespace Script

/-- A scope grows when it stays inside the same scopes, keeps its constants as they are and gives
its other names at most a new value. -/
structure Scope.Grows (before after : Scope) : Prop where
  outer : after.outer = before.outer
  names : before.names ⊆ after.names
  constants : before.constants ⊆ after.constants
  same : ∀ {name value}, before.Fixes name value → after.bindings.get? name = some value
  changeable : ∀ {name}, name ∈ before.names → name ∈ after.constants → name ∈ before.constants

namespace Scope.Grows

theorem refl (scope : Scope) : scope.Grows scope :=
  ⟨rfl, List.Subset.refl _, List.Subset.refl _, fun h => h.2, fun _ h => h⟩

theorem fixes {before after : Scope} (h : before.Grows after) {name : String} {value : Value}
    (hname : before.Fixes name value) : after.Fixes name value :=
  ⟨h.constants hname.1, h.same hname⟩

theorem trans {first second third : Scope} (h : first.Grows second) (h' : second.Grows third) :
    first.Grows third where
  outer := h'.outer.trans h.outer
  names := List.Subset.trans h.names h'.names
  constants := List.Subset.trans h.constants h'.constants
  same hname := h'.same (h.fixes hname)
  changeable hname hconstant := h.changeable hname (h'.changeable (h.names hname) hconstant)

/-- A name may be bound if it is new, or again if it is not constant. -/
theorem bind (scope : Scope) (name : String) (value : Value) {constant : Bool}
    (hold : name ∈ scope.names → name ∉ scope.constants ∧ constant = false) :
    scope.Grows (scope.bind name value constant) := by
  refine ⟨rfl, ?_, ?_, ?_, ?_⟩
  · intro other hother
    exact (scope.mem_names_bind name value constant other).mpr (.inr hother)
  · intro other hother
    exact (scope.mem_constants_bind name value constant other).mpr (.inr hother)
  · intro other kept hother
    have hne : other ≠ name := by
      rintro rfl
      exact (hold ((scope.mem_names_iff other).mpr ⟨kept, hother.2⟩)).1 hother.1
    rw [Scope.bind, Table.get?_insert_of_ne _ hne]
    exact hother.2
  · intro other hother hconstant
    rcases (scope.mem_constants_bind name value constant other).mp hconstant with hnew | hbefore
    · rw [(hold (hnew.2 ▸ hother)).2] at hnew
      exact absurd hnew.1 Bool.false_ne_true
    · exact hbefore

end Scope.Grows

structure Heap.Grows (before after : Heap) : Prop where
  size : before.scopes.size ≤ after.scopes.size
  scope : ∀ id : ScopeId, id.index < before.scopes.size →
    (before.scope id).Grows (after.scope id)
  bindsConstants : before.BindsConstants → after.BindsConstants

namespace Heap.Grows

theorem refl (h : Heap) : h.Grows h :=
  ⟨Nat.le_refl _, fun _ _ => .refl _, fun hbinds => hbinds⟩

theorem trans {first second third : Heap} (h : first.Grows second) (h' : second.Grows third) :
    first.Grows third := by
  refine ⟨Nat.le_trans h.size h'.size, fun id hid => ?_, fun hbinds => ?_⟩
  · exact (h.scope id hid).trans (h'.scope id (Nat.lt_of_lt_of_le hid h.size))
  · exact h'.bindsConstants (h.bindsConstants hbinds)

/-- Arrays, objects and stamps are none of the scopes' business. -/
theorem of_scopes_eq {before after : Heap} (h : after.scopes = before.scopes) :
    before.Grows after := by
  have hscope : ∀ id, after.scope id = before.scope id := by
    intro id
    rw [Heap.scope, Heap.scope, h]
  refine ⟨Nat.le_of_eq (congrArg Array.size h.symm), fun id _ => ?_, fun hbinds id => ?_⟩
  · rw [hscope]
    exact .refl _
  · rw [hscope]
    exact hbinds id

theorem newScope (h : Heap) (outer : List ScopeId) : h.Grows (h.newScope outer).2 := by
  refine ⟨by simp [Heap.newScope], fun id hid => ?_, fun hbinds => hbinds.newScope outer⟩
  rw [scope_newScope h outer hid]
  exact .refl _

theorem bind (h : Heap) (id : ScopeId) (name : String) (value : Value) {constant : Bool}
    (hold : name ∈ (h.scope id).names → name ∉ (h.scope id).constants ∧ constant = false) :
    h.Grows (h.bind id name value constant) := by
  refine ⟨Nat.le_of_eq (size_bind h id name value constant).symm, fun other _ => ?_,
    fun hbinds => hbinds.bind id name value constant⟩
  rcases h.scope_bind_cases id name value constant other with hsame | ⟨rfl, hbound⟩
  · rw [hsame]
    exact .refl _
  · rw [hbound]
    exact .bind _ name value hold

theorem declare (id : ScopeId) (name : String) (value : Value) (constant : Bool) (h : Heap) :
    h.Grows (Eval.final (Heap.declare id name value constant) h) := by
  unfold Eval.final Heap.declare
  by_cases hbound : (h.scope id).bindings.contains name
  · rw [if_pos hbound]
    exact refl h
  · rw [if_neg hbound]
    apply bind
    intro hname
    exact absurd (((h.scope id).contains_iff name).mpr hname) hbound

theorem assign (id : ScopeId) (name : String) (value : Value) (h : Heap) :
    h.Grows (Eval.final (Heap.assign id name value) h) := by
  unfold Eval.final Heap.assign
  cases hfound : h.binding? id name with
  | none => exact refl h
  | some found =>
    obtain ⟨holder, old⟩ := found
    by_cases hconstant : name ∈ (h.scope holder).constants
    · simp only [hconstant, if_true]
      exact refl h
    · simp only [hconstant, if_false]
      exact bind h holder name value fun _ => ⟨hconstant, rfl⟩

theorem write (slot : Slot) (value : Value) (h : Heap) :
    h.Grows (Eval.final (slot.write value) h) := by
  apply of_scopes_eq
  unfold Eval.final Slot.write
  cases slot with
  | item array index =>
    cases hroom : (Number.position? index).filter fun position => h.hasRoom array position with
    | none => simp only [hroom]
    | some position =>
      simp only [hroom]
      rfl
  | property object key => rfl

end Heap.Grows

namespace Eval

/-- Whatever is evaluated, scopes only grow. -/
theorem stable_grows : Stable fun s t => s.heap.Grows t.heap where
  refl s := .refl s.heap
  trans h h' := h.trans h'
  newChild parent s := .newScope s.heap (s.heap.chain parent)
  newArray _ _ := .of_scopes_eq rfl
  newObject _ _ := .of_scopes_eq rfl
  newStamp _ := .of_scopes_eq rfl
  onDeclare scope name value constant s := by
    rw [final_onHeap]
    exact .declare scope name value constant s.heap
  onAssign scope name value s := by
    rw [final_onHeap]
    exact .assign scope name value s.heap
  onWrite slot value s := by
    rw [final_onHeap]
    exact .write slot value s.heap
  printLine line s := .of_scopes_eq (by rw [heap_printLine])
  readClock s := .of_scopes_eq rfl
  counted {call} h s := by
    show s.heap.Grows (final (counted call) s).heap
    rw [heap_counted]
    exact h { s with depth := s.depth + 1 }

/-- A constant stands for its value from its declaration on. -/
theorem fixes_of_declare {scope : ScopeId} {name : String} {value answer : Value} {s t : State}
    (hscope : scope.index < s.heap.scopes.size)
    (h : declare scope name value true s = .ok answer t) :
    (t.heap.scope scope).Fixes name answer := by
  have hdeclare : declare scope name value true s =
      if (s.heap.scope scope).bindings.contains name then
        .error (.duplicateDeclaration name) s
      else .ok value { s with heap := s.heap.bind scope name value true } := by
    show EStateM.bind _ _ s = _
    unfold EStateM.bind onHeap Heap.declare
    by_cases hbound : (s.heap.scope scope).bindings.contains name
    · simp only [if_pos hbound]
    · simp only [if_neg hbound]
      rfl
  rw [hdeclare] at h
  by_cases hbound : (s.heap.scope scope).bindings.contains name
  · rw [if_pos hbound] at h
    cases h
  · rw [if_neg hbound] at h
    cases h
    rw [Heap.scope_bind _ _ _ _ hscope, if_pos rfl]
    exact Scope.fixes_bind _ name value

theorem fixes_of_function {call : Caller} {scope : ScopeId} {name : String}
    {parameters : List String} {body : List Stmt} {s t : State} {value : Value}
    (hscope : scope.index < s.heap.scopes.size)
    (h : stmt call scope (.function name parameters body) s = .ok value t) :
    (t.heap.scope scope).Fixes name value := by
  have hstamp : stmt call scope (.function name parameters body) s =
      declare scope name (.function ⟨⟨s.heap.stamps, name, parameters, body⟩, scope⟩) true
        { s with heap := s.heap.newStamp.2 } := rfl
  rw [hstamp] at h
  refine fixes_of_declare ?_ h
  exact hscope

end Eval
end Script
